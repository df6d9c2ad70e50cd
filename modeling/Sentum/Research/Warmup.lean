import Sentum.Market.RollingWindow
import Sentum.Research.ResearchPlatform
import Sentum.Strategy.Signals

/-!
# Warming up a strategy

`run_slice` warms its strategy with the `lookback + 1` events before the slice.
The buffer then holds what it would hold after all events before the slice,
in other slots, so the signals are the same (`truncated_warmup`).
-/

namespace Sentum.Strategy.MomentumStrategy

open Sentum Market

/-- `on_price` for the events of a warmup. -/
def warm (s : MomentumStrategy) (events : List MarketEvent) : MomentumStrategy :=
  events.foldl (fun s e => (s.onPrice e.price e.timestamp).1) s

/-! ## The strategy as a function of the prices seen -/

/-- **Invariant**: the strategy after these prices. -/
structure Seen (s : MomentumStrategy) (lookback : Nat) (threshold : ℚ) (prices : List ℚ) : Prop where
  threshold : s.entryThreshold = threshold
  length : s.rollingReturn.values.length = max 2 lookback
  holds : s.rollingReturn.Holds prices

theorem seen_init (lookback : Nat) (threshold : ℚ) : Seen (init lookback threshold) lookback threshold [] :=
  ⟨rfl, RollingReturn.init_length lookback, RollingReturn.holds_init lookback⟩

variable {s t : MomentumStrategy} {lookback : Nat} {threshold : ℚ} {prices : List ℚ}

theorem Seen.onPrice (h : Seen s lookback threshold prices) (price : ℚ) (observedAt : TimePoint) :
    Seen (s.onPrice price observedAt).1 lookback threshold (prices ++ [price]) := by
  rw [onPrice_fst]
  exact ⟨h.threshold, (RollingReturn.push_length _ _).trans h.length, h.holds.push price⟩

theorem Seen.warm (h : Seen s lookback threshold prices) (events : List MarketEvent) :
    Seen (s.warm events) lookback threshold (prices ++ events.map MarketEvent.price) := by
  induction events generalizing s prices with
  | nil => simpa [MomentumStrategy.warm] using h
  | cons e events ih =>
    have hnext := ih (h.onPrice e.price e.timestamp)
    rw [List.append_assoc] at hnext
    exact hnext

/-- Prices before a full window are forgotten. -/
theorem Seen.signal {older : List ℚ} (h : Seen s lookback threshold prices)
    (h' : Seen t lookback threshold (older ++ prices)) (hfull : older = [] ∨ max 2 lookback ≤ prices.length)
    (price : ℚ) (observedAt : TimePoint) :
    (s.onPrice price observedAt).2 = (t.onPrice price observedAt).2 := by
  have hpush := h.holds.push price
  have hpush' := h'.holds.push price
  have hlength : (s.rollingReturn.push price).values.length = (t.rollingReturn.push price).values.length := by
    rw [RollingReturn.push_length, RollingReturn.push_length, h.length, h'.length]
  have hcap : (t.rollingReturn.push price).values.length = max 2 lookback := by
    rw [RollingReturn.push_length, h'.length]
  refine onPrice_snd_congr observedAt (h.threshold.trans h'.threshold.symm) ?_ ?_
  · rw [hpush.ready, hpush'.ready, hlength, hcap]
    rcases hfull with rfl | hfull
    · rfl
    · have hlong : max 2 lookback ≤ (prices ++ [price]).length := by
        rw [List.length_append]
        omega
      have hlonger : max 2 lookback ≤ (older ++ prices ++ [price]).length := by
        rw [List.append_assoc, List.length_append]
        omega
      rw [decide_eq_true hlong, decide_eq_true hlonger]
  · rw [hpush.value, hpush'.value, hlength, hcap]
    rcases hfull with rfl | hfull
    · rfl
    · have hlong : max 2 lookback ≤ (prices ++ [price]).length := by
        rw [List.length_append]
        omega
      rw [List.append_assoc]
      exact (RollingReturn.windowReturn_append (by omega) older hlong).symm

theorem Seen.signals {older : List ℚ} (h : Seen s lookback threshold prices)
    (h' : Seen t lookback threshold (older ++ prices)) (hfull : older = [] ∨ max 2 lookback ≤ prices.length)
    (events : List MarketEvent) :
    IStrategy.signals (.momentum s) events = IStrategy.signals (.momentum t) events := by
  induction events generalizing s t prices with
  | nil => rfl
  | cons e events ih =>
    have hnext := h.onPrice e.tradedAt e.timestamp
    have hnext' := h'.onPrice e.tradedAt e.timestamp
    rw [List.append_assoc] at hnext'
    have hfull' : older = [] ∨ max 2 lookback ≤ (prices ++ [e.tradedAt]).length := by
      rw [List.length_append]
      exact hfull.imp_right fun hle => by omega
    have hsignal := h.signal h' hfull e.tradedAt e.timestamp
    have hrest := ih hnext hnext' hfull'
    unfold IStrategy.signals
    unfold IStrategy.onEvent
    exact congrArg₂ List.cons hsignal hrest

end Sentum.Strategy.MomentumStrategy

namespace Sentum.Research

open Sentum Market Strategy Trader MomentumStrategy

/-- `run_slice` warms with the last `lookback + 1` events. -/
theorem warmedUp_eq {events : List MarketEvent} {first : Nat} {p : ParameterSet}
    (hlookback : p.lookback ≤ vectorMaxSize) :
    warmedUp events first p true =
      (MomentumStrategy.init p.lookback p.entryThreshold).warm
        ((events.take first).drop (first - min first (p.lookback + 1))) := by
  have hsize : vectorMaxSize + 1 < 2 ^ 64 := by decide
  have hwrap : (p.lookback + 1) % 2 ^ 64 = p.lookback + 1 := Nat.mod_eq_of_lt (by omega)
  unfold warmedUp
  rw [hwrap, Bool.true_and]
  split
  · rfl
  · next h =>
    have hzero : first = 0 := by simpa using h
    rw [hzero]
    rfl

/-- **Truncated warmup equals full warmup.** -/
theorem truncated_warmup {events : List MarketEvent} {first : Nat} (hfirst : first ≤ events.length)
    {p : ParameterSet} (hlookback : 2 ≤ p.lookback) {strategy : MomentumStrategy}
    (h : construct p.lookback p.entryThreshold = .ok strategy) (continuation : List MarketEvent) :
    IStrategy.signals (.momentum (warmedUp events first p true)) continuation =
      IStrategy.signals (.momentum (strategy.warm (events.take first))) continuation := by
  obtain ⟨hsize, hstrategy⟩ := construct_eq_ok.mp h
  rw [hstrategy, warmedUp_eq (by omega)]
  let skipped := first - min first (p.lookback + 1)
  have hseen := (seen_init p.lookback p.entryThreshold).warm ((events.take first).drop skipped)
  have hseen' := (seen_init p.lookback p.entryThreshold).warm (events.take first)
  have hsplit : [] ++ (events.take first).map MarketEvent.price =
      ((events.take first).take skipped).map MarketEvent.price ++
        ([] ++ ((events.take first).drop skipped).map MarketEvent.price) := by
    rw [List.nil_append, List.nil_append, ← List.map_append, List.take_append_drop]
  rw [hsplit] at hseen'
  refine hseen.signals hseen' ?_ continuation
  by_cases hshort : first ≤ p.lookback + 1
  · have hnone : skipped = 0 := by omega
    left
    rw [hnone]
    rfl
  · right
    rw [List.nil_append, List.length_map, List.length_drop, List.length_take]
    omega

/-- Six events at rising prices. -/
def rising : List MarketEvent := (List.range 6).map fun second => btcEvent second (100 + second)

/-- Warmed with three events of four, at a lookback of two. -/
theorem truncated_warmup_rising :
    IStrategy.signals (.momentum (warmedUp rising 4 { lookback := 2 } true)) (rising.drop 4) =
      IStrategy.signals (.momentum ((MomentumStrategy.init 2 (1 / 1000)).warm (rising.take 4))) (rising.drop 4) := by
  have hconstruct : construct 2 (1 / 1000) = .ok (MomentumStrategy.init 2 (1 / 1000)) :=
    construct_eq_ok.mpr ⟨by decide, rfl⟩
  have hfirst : 4 ≤ rising.length := by decide
  exact truncated_warmup hfirst (by decide) hconstruct (rising.drop 4)

end Sentum.Research
