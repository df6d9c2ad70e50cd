import Mathlib.Algebra.BigOperators.Group.List.Basic
import Sentum.Lib.LowerBound
import Sentum.Research.HoldoutAnalysis

/-!
# Market regimes look back only

The regime of a trade is read off a window that ends before the first event at
or after the entry: the label is a function of the events before it
(`regime_past`).  `regime_metrics` puts every trade under exactly one label.
-/

namespace Sentum.Research

open Sentum Market Trader Backtest LowerBound

/-! ## The label -/

/-- The event is before the entry. -/
def beforeEntry (entry : TimePoint) (e : MarketEvent) : Bool := decide (e.timestamp < entry)

def Chronological (events : List MarketEvent) : Prop := events.Pairwise fun a b => a.timestamp ≤ b.timestamp

/-- `regime`, from the index that `std::lower_bound` has found. -/
def labelAt (fn : Cmath) (events : List MarketEvent) (idx : Nat) : String :=
  if idx = 0 then "unknown"
  else
    let first := if 20 < idx then idx - 20 else 0
    if idx - first < 3 then "unknown"
    else
      let window := (events.take idx).drop first
      let firstPrice := ((window.head?).map MarketEvent.price).getD 0
      let lastPrice := ((window.getLast?).map MarketEvent.price).getD 0
      if firstPrice ≤ 0 ∨ lastPrice ≤ 0 then "unknown"
      else
        let trend := lastPrice / firstPrice - 1
        let rs := logReturns fn window
        let vol := if 1 < rs.length then fn.sqrt (variance rs) else 0
        if 3 / 1000 < vol then "high_volatility"
        else if 5 / 1000 < trend then "trending_up"
        else if trend < -(5 / 1000) then "trending_down"
        else "ranging"

/-- The events before the entry come first. -/
theorem Chronological.before_first {events : List MarketEvent} (h : Chronological events) (entry : TimePoint) :
    events.Pairwise fun a b => beforeEntry entry b = true → beforeEntry entry a = true := by
  refine h.imp fun hab hb => ?_
  unfold beforeEntry at hb ⊢
  rw [decide_eq_true_eq] at hb ⊢
  exact Int.lt_of_le_of_lt hab hb

/-- The index is that of the binary search. -/
theorem regime_searched (fn : Cmath) {events : List MarketEvent} (h : Chronological events) (entry : TimePoint) :
    regime fn events entry = labelAt fn events (lowerBound (beforeEntry entry) events) := by
  rw [lowerBound_eq_length (h.before_first entry)]
  rfl

/-- Nothing from the index on is looked at. -/
theorem labelAt_take (fn : Cmath) (events : List MarketEvent) (idx : Nat) :
    labelAt fn events idx = labelAt fn (events.take idx) idx := by
  have htake : (events.take idx).take idx = events.take idx := by
    rw [List.take_take, Nat.min_self]
  unfold labelAt
  rw [htake]

/-- **The label is a function of the past.** -/
theorem regime_past (fn : Cmath) {events : List MarketEvent} (h : Chronological events) (entry : TimePoint) :
    regime fn events entry =
      labelAt fn (events.filter (beforeEntry entry)) (events.filter (beforeEntry entry)).length := by
  have hpast := takeWhile_eq_filter (h.before_first entry)
  have htake : events.take (events.takeWhile (beforeEntry entry)).length = events.takeWhile (beforeEntry entry) :=
    (List.prefix_iff_eq_take.mp (List.takeWhile_prefix _)).symm
  show labelAt fn events (events.takeWhile (beforeEntry entry)).length = _
  rw [labelAt_take, htake, hpast]

/-! ## The buckets -/

def regimeNames : List String := ["trending_up", "trending_down", "ranging", "high_volatility", "unknown"]

theorem labelAt_mem (fn : Cmath) (events : List MarketEvent) (idx : Nat) : labelAt fn events idx ∈ regimeNames := by
  unfold labelAt regimeNames
  dsimp only
  repeat' split
  all_goals decide

theorem regime_mem (fn : Cmath) (events : List MarketEvent) (entry : TimePoint) : regime fn events entry ∈ regimeNames :=
  labelAt_mem fn events _

/-- Sums over classes add up to the sum over all. -/
theorem sum_classes {α β M : Type*} [DecidableEq β] [AddCommMonoid M] (label : α → β) (value : α → M)
    {names : List β} (hnames : names.Nodup) {xs : List α} (h : ∀ x ∈ xs, label x ∈ names) :
    (names.map fun name => ((xs.filter fun x => decide (label x = name)).map value).sum).sum =
      (xs.map value).sum := by
  induction names generalizing xs with
  | nil =>
    have hnil : xs = [] := List.eq_nil_iff_forall_not_mem.mpr fun x hx => List.not_mem_nil (h x hx)
    rw [hnil]
    rfl
  | cons name names ih =>
    obtain ⟨hname, hnodup⟩ := List.nodup_cons.mp hnames
    have hothers : ∀ x ∈ xs.filter (fun x => !decide (label x = name)), label x ∈ names := by
      intro x hx
      obtain ⟨hmem, hne⟩ := List.mem_filter.mp hx
      rcases List.mem_cons.mp (h x hmem) with heq | hin
      · simp [heq] at hne
      · exact hin
    have hclasses : ∀ other ∈ names, xs.filter (fun x => decide (label x = other)) =
        (xs.filter fun x => !decide (label x = name)).filter fun x => decide (label x = other) := by
      intro other hother
      rw [List.filter_filter]
      refine List.filter_congr fun x _ => ?_
      by_cases heq : label x = other
      · have hne : other ≠ name := fun hon => hname (hon ▸ hother)
        simp [heq, hne]
      · simp [heq]
    have hrest : (names.map fun other => ((xs.filter fun x => decide (label x = other)).map value).sum).sum =
        ((xs.filter fun x => !decide (label x = name)).map value).sum := by
      rw [← ih hnodup hothers]
      refine congrArg List.sum (List.map_congr_left fun other hother => ?_)
      rw [hclasses other hother]
    have hsplit := List.sum_map_filter_add_sum_map_filter_not (fun x => label x = name) value xs
    rw [List.map_cons, List.sum_cons, hrest]
    simpa only [decide_not] using hsplit

/-- The trades of a regime. -/
def inRegime (fn : Cmath) (events : List MarketEvent) (trades : List TradePosition) (name : String) :
    List TradePosition :=
  trades.filter fun t => decide (regime fn events t.entryTime = name)

/-- The entry of `regime_metrics` for a regime, if it has trades. -/
def bucket (fn : Cmath) (events : List MarketEvent) (trades : List TradePosition) (name : String) :
    Option RegimeMetrics :=
  if inRegime fn events trades name = [] then none
  else some { regime := name, metrics := MetricsCalculator.calculate fn (inRegime fn events trades name) }

theorem regimeMetrics_eq (fn : Cmath) (events : List MarketEvent) (trades : List TradePosition) :
    regimeMetrics fn events trades = regimeNames.filterMap (bucket fn events trades) := rfl

theorem bucket_eq_some {fn : Cmath} {events : List MarketEvent} {trades : List TradePosition} {name : String}
    {m : RegimeMetrics} (h : bucket fn events trades name = some m) :
    m = { regime := name, metrics := MetricsCalculator.calculate fn (inRegime fn events trades name) } := by
  unfold bucket at h
  split at h
  · cases h
  · exact (Option.some.inj h).symm

theorem sum_filterMap {α β M : Type*} [AddCommMonoid M] (f : α → Option β) (g : β → M) (xs : List α) :
    ((xs.filterMap f).map g).sum = (xs.map fun x => (f x).elim 0 g).sum := by
  induction xs with
  | nil => rfl
  | cons x xs ih =>
    rw [List.map_cons, List.sum_cons, ← ih, List.filterMap_cons]
    cases f x with
    | none => exact (zero_add _).symm
    | some y => rw [List.map_cons, List.sum_cons, Option.elim_some]

/-- What the buckets add up to; a regime without trades would add nothing. -/
theorem sum_buckets {M : Type*} [AddCommMonoid M] (fn : Cmath) (events : List MarketEvent)
    (trades : List TradePosition) (total : BacktestMetrics → M) (value : TradePosition → M)
    (htotal : ∀ b, total (MetricsCalculator.calculate fn b) = (b.map value).sum) :
    ((regimeMetrics fn events trades).map fun m => total m.metrics).sum = (trades.map value).sum := by
  have hbucket : ∀ name, (bucket fn events trades name).elim 0 (fun m => total m.metrics) =
      ((inRegime fn events trades name).map value).sum := by
    intro name
    unfold bucket
    split
    · next hnil =>
      rw [hnil]
      rfl
    · exact htotal _
  rw [regimeMetrics_eq, sum_filterMap, List.map_congr_left fun name _ => hbucket name]
  exact sum_classes _ value (by decide) fun t _ => regime_mem fn events t.entryTime

/-- The labels with a bucket are those with a trade. -/
theorem regimes_eq (fn : Cmath) (events : List MarketEvent) (trades : List TradePosition) (names : List String) :
    (names.filterMap (bucket fn events trades)).map RegimeMetrics.regime =
      names.filter fun name => decide (inRegime fn events trades name ≠ []) := by
  induction names with
  | nil => rfl
  | cons name names ih =>
    rw [List.filterMap_cons]
    by_cases hnil : inRegime fn events trades name = []
    · have hbucket : bucket fn events trades name = none := if_pos hnil
      rw [hbucket, List.filter_cons_of_neg (by simpa using hnil)]
      exact ih
    · have hbucket : bucket fn events trades name = some _ := if_neg hnil
      rw [hbucket, List.filter_cons_of_pos (by simpa using hnil), ← ih]
      rfl

theorem regimes_nodup (fn : Cmath) (events : List MarketEvent) (trades : List TradePosition) :
    ((regimeMetrics fn events trades).map RegimeMetrics.regime).Nodup := by
  have hnames : regimeNames.Nodup := by decide
  rw [regimeMetrics_eq, regimes_eq]
  exact hnames.filter _

/-- The bucket of a trade. -/
theorem exists_bucket (fn : Cmath) (events : List MarketEvent) {trades : List TradePosition} {t : TradePosition}
    (ht : t ∈ trades) : ∃! m, m ∈ regimeMetrics fn events trades ∧ m.regime = regime fn events t.entryTime := by
  have hmem : t ∈ inRegime fn events trades (regime fn events t.entryTime) :=
    List.mem_filter.mpr ⟨ht, decide_eq_true rfl⟩
  have hbucket : bucket fn events trades (regime fn events t.entryTime) = some _ :=
    if_neg (List.ne_nil_of_mem hmem)
  refine ⟨_, ⟨List.mem_filterMap.mpr ⟨_, regime_mem fn events t.entryTime, hbucket⟩, rfl⟩, ?_⟩
  rintro m ⟨hm, hregime⟩
  obtain ⟨name, -, hm'⟩ := List.mem_filterMap.mp hm
  have heq := bucket_eq_some hm'
  rw [heq] at hregime ⊢
  dsimp only at hregime
  rw [hregime]

/-- **Main result.**  The label of a trade depends on the events before its entry
only, and `regime_metrics` is a partition: every trade is in the one bucket of
its label, and the buckets' counts and net profits add up to those of all
trades. -/
theorem regimes_causal (fn : Cmath) :
    (∀ (events events' : List MarketEvent) (t : TradePosition), Chronological events → Chronological events' →
      events.filter (beforeEntry t.entryTime) = events'.filter (beforeEntry t.entryTime) →
        regime fn events t.entryTime = regime fn events' t.entryTime) ∧
    ∀ (events : List MarketEvent) (trades : List TradePosition),
      let buckets := regimeMetrics fn events trades
      let all := MetricsCalculator.calculate fn trades
      (buckets.map RegimeMetrics.regime).Nodup ∧
      (∀ t ∈ trades, ∃! m, m ∈ buckets ∧ m.regime = regime fn events t.entryTime) ∧
      (∀ m ∈ buckets, m.metrics = MetricsCalculator.calculate fn
        (trades.filter fun t => decide (regime fn events t.entryTime = m.regime))) ∧
      (buckets.map fun m => m.metrics.trades).sum = all.trades ∧
      (buckets.map fun m => m.metrics.netProfit).sum = all.netProfit := by
  constructor
  · intro events events' t h h' hagree
    rw [regime_past fn h, regime_past fn h', hagree]
  · intro events trades buckets all
    refine ⟨regimes_nodup fn events trades, fun t ht => exists_bucket fn events ht, fun m hm => ?_, ?_, ?_⟩
    · obtain ⟨name, -, hbucket⟩ := List.mem_filterMap.mp hm
      rw [bucket_eq_some hbucket]
      rfl
    · have hcount : ∀ b : List TradePosition, (MetricsCalculator.calculate fn b).trades = (b.map fun _ => 1).sum := by
        intro b
        rw [MetricsCalculator.calculate_trades, List.map_const', List.sum_replicate, nsmul_one, Nat.cast_id]
      rw [sum_buckets fn events trades BacktestMetrics.trades (fun _ => 1) hcount, ← hcount]
    · rw [sum_buckets fn events trades BacktestMetrics.netProfit TradePosition.netProfit
        (MetricsCalculator.calculate_netProfit fn), ← MetricsCalculator.calculate_netProfit fn]

/-- Four events before the fifth second, and one at it. -/
def upTo (future : ℚ) : List MarketEvent :=
  [{ timestamp := seconds 1, price := 100 }, { timestamp := seconds 2, price := 101 },
    { timestamp := seconds 3, price := 102 }, { timestamp := seconds 4, price := 103 },
    { timestamp := seconds 5, price := future }]

theorem regimes_causal_upTo :
    regime ⟨id, id⟩ (upTo 1) (seconds 5) = regime ⟨id, id⟩ (upTo 1000) (seconds 5) ∧
      regime ⟨id, id⟩ (upTo 1000) (seconds 5) = "trending_up" := by
  refine ⟨?_, by decide +kernel⟩
  exact (regimes_causal ⟨id, id⟩).1 (upTo 1) (upTo 1000) { entryTime := seconds 5 } (by unfold Chronological; decide)
    (by unfold Chronological; decide) (by decide +kernel)

end Sentum.Research
