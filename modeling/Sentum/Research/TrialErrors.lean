import Sentum.Research.TrialPool
import Sentum.Trader.Steady

/-!
# Errors in the worker threads

No worker catches what a trial throws: the exception leaves the thread function
and `std::terminate` ends the process, so the caller of `run` gets none.  A
trial throws for its objective, which is looked at only there, for a lookback
that no vector can hold, and for a slice that starts before the epoch, where
the replay clock stands (`errorsDelivered_iff`).
-/

namespace Sentum.Research

open Sentum Market Strategy Risk Trader Backtest Run Returning

/-! ## Replays -/

/-- A replay of events in order returns unless its clock is ahead of the first. -/
theorem returns_replayOrThrow_iff {clock : ReplayClock} {e : TradeEngine} (h : e.Steady)
    {xs : List (MarketEvent × TimePoint)} (hsorted : xs.Pairwise fun x y => x.1.timestamp ≤ y.1.timestamp) :
    Returns (replayOrThrow clock e xs) ↔ ∀ x ∈ xs.head?, clock.current ≤ x.1.timestamp := by
  induction xs generalizing clock e with
  | nil => exact iff_of_true (returns_ok e) nofun
  | cons x rest ih =>
    obtain ⟨event, systemNow⟩ := x
    obtain ⟨hfirst, hrest⟩ := List.pairwise_cons.mp hsorted
    unfold replayOrThrow
    by_cases hback : event.timestamp < clock.current
    · have hclock : clock.advanceTo event.timestamp = .error "Replay clock cannot move backwards" := if_pos hback
      rw [hclock]
      exact iff_of_false (not_returns_error _) fun hle => not_le.mpr hback (hle _ rfl)
    · have hclock : clock.advanceTo event.timestamp = .ok ⟨event.timestamp⟩ := if_neg hback
      obtain ⟨action, hresult, hsteady⟩ := h.processEvent event.timestamp systemNow event
      have hnow : (⟨event.timestamp⟩ : ReplayClock).now = event.timestamp := rfl
      rw [hclock]
      dsimp only
      rw [hnow, hresult]
      refine iff_of_true ((ih hsteady hrest).mpr fun x hx => ?_) fun x hx => ?_
      · exact hfirst x (List.mem_of_mem_head? hx)
      · cases hx
        exact not_lt.mp hback

/-- The slice is one that `run_slice` replays. -/
def InRange (events : List MarketEvent) (x : Nat × Nat) : Prop := x.1 < x.2 ∧ x.2 ≤ events.length

instance (events : List MarketEvent) : DecidablePred (InRange events) :=
  fun x => inferInstanceAs (Decidable (x.1 < x.2 ∧ x.2 ≤ events.length))

theorem returns_construct_iff {lookback : Nat} {entryThreshold : ℚ} :
    Returns (MomentumStrategy.construct lookback entryThreshold) ↔ lookback ≤ MomentumStrategy.vectorMaxSize := by
  have htwo : 2 ≤ MomentumStrategy.vectorMaxSize := by decide
  constructor
  · rintro ⟨strategy, h⟩
    exact (le_max_right 2 lookback).trans (MomentumStrategy.construct_eq_ok.mp h).1
  · intro h
    exact ⟨_, MomentumStrategy.construct_eq_ok.mpr ⟨max_le htwo h, rfl⟩⟩

section

variable {s : Surroundings} {c : ResearchConfig} {risk : RiskConfig} {events : List MarketEvent}

theorem head?_timed_slice {first last : Nat} (hin : InRange events (first, last)) (systemNow : Nat → TimePoint) :
    (timed (slice events first last) systemNow).head? = some (events.getD first {}, systemNow 0) := by
  obtain ⟨hlt, hle⟩ := hin
  have hfirst : first < events.length := Nat.lt_of_lt_of_le hlt hle
  have hhead : (slice events first last).head? = some (events.getD first {}) := by
    unfold slice
    rw [List.head?_drop, List.getElem?_take_of_lt hlt, List.getD_eq_getElem?_getD, List.getElem?_eq_getElem hfirst]
    rfl
  obtain ⟨rest, hslice⟩ := List.head?_eq_some_iff.mp hhead
  rw [hslice]
  rfl

theorem sorted_timed (hsorted : events.Pairwise fun a b => a.timestamp ≤ b.timestamp) (systemNow : Nat → TimePoint) :
    (timed events systemNow).Pairwise fun x y => x.1.timestamp ≤ y.1.timestamp := by
  rw [← List.zipIdx_map_fst 0 events, List.pairwise_map] at hsorted
  exact List.Pairwise.map _ (fun _ _ h => h) hsorted

/-- `run_slice` throws only where it replays. -/
theorem returns_runSlice_iff (hsorted : events.Pairwise fun a b => a.timestamp ≤ b.timestamp)
    (hrisk : 0 < risk.minQuantity) {fn : Cmath} {first last : Nat} {p : ParameterSet} {symbol : String} {warmup : Bool}
    {systemNow : Nat → TimePoint} :
    Returns (runSlice fn events first last p risk symbol warmup systemNow) ↔
      (InRange events (first, last) →
        p.lookback ≤ MomentumStrategy.vectorMaxSize ∧ 0 ≤ (events.getD first {}).timestamp) := by
  unfold runSlice
  split
  · next hout =>
    exact iff_of_true (returns_ok _) fun hin => absurd hin.1 (by have := hin.2; omega)
  · next hin =>
    have hin : InRange events (first, last) := by
      show first < last ∧ last ≤ events.length
      omega
    have hconstruct : Returns (MomentumStrategy.construct p.lookback p.entryThreshold) ↔
        p.lookback ≤ MomentumStrategy.vectorMaxSize := returns_construct_iff
    rw [forall_prop_of_true hin, ← hconstruct]
    cases MomentumStrategy.construct p.lookback p.entryThreshold with
    | error what => exact iff_of_false (not_returns_error _) fun h => not_returns_error what h.1
    | ok strategy =>
      have hminimum : 0 < (applyTrialRisk risk p).minQuantity := hrisk
      have hsteady : (TradeEngine.init symbol false (applyTrialRisk risk p)
          (.momentum (warmedUp events first p warmup))).Steady := TradeEngine.steady_init symbol false hminimum _
      have hslice : (slice events first last).Pairwise fun a b => a.timestamp ≤ b.timestamp :=
        hsorted.sublist ((List.drop_sublist _ _).trans (List.take_sublist _ _))
      have hreplay := @returns_replayOrThrow_iff {} _ hsteady _ (sorted_timed hslice systemNow)
      rw [head?_timed_slice hin] at hreplay
      rw [and_iff_right (returns_ok strategy)]
      dsimp only
      cases hengine : replayOrThrow {} (TradeEngine.init symbol false (applyTrialRisk risk p)
          (.momentum (warmedUp events first p warmup))) (timed (slice events first last) systemNow) with
      | error what =>
        rw [hengine] at hreplay
        refine iff_of_false (not_returns_error what) fun hle => not_returns_error what (hreplay.mpr ?_)
        intro x hx
        cases hx
        exact hle
      | ok engine =>
        rw [hengine] at hreplay
        exact iff_of_true (returns_ok _) (hreplay.mp (returns_ok engine) _ rfl)

end

/-! ## Trials -/

/-- The slices of a fold: training and validation. -/
def FoldWindow.slices (w : FoldWindow) : List (Nat × Nat) :=
  (if w.te ≠ 0 then [(0, w.te.toNat)] else []) ++ (if w.vb < w.ve then [(w.vb.toNat, w.ve.toNat)] else [])

/-- The slices that every trial replays. -/
def replayedSlices (c : ResearchConfig) (events : List MarketEvent) : List (Nat × Nat) :=
  let n := UInt64.ofNat events.length
  ((List.range (c.folds n).toNat).flatMap fun f => (c.fold n (UInt64.ofNat f)).slices).filter (InRange events)

/-- The objectives that `score` knows. -/
def objectives : List String :=
  ["sharpe", "sortino", "net_profit", "profit_factor", "expectancy", "risk_adjusted_profit"]

theorem score_unsupported {objective : String} (h : objective ∉ objectives) (m : BacktestMetrics) :
    score m objective = .error ("Unsupported research objective: " ++ objective) := by
  simp only [objectives, List.mem_cons, List.not_mem_nil, or_false, not_or] at h
  obtain ⟨h₁, h₂, h₃, h₄, h₅, h₆⟩ := h
  simp only [score, h₁, h₂, h₃, h₄, h₅, h₆, if_false]

theorem returns_score_iff {m : BacktestMetrics} {objective : String} :
    Returns (score m objective) ↔ objective ∈ objectives := by
  constructor
  · intro h
    by_contra hunknown
    rw [score_unsupported hunknown] at h
    exact not_returns_error _ h
  · intro h
    simp only [objectives, List.mem_cons, List.not_mem_nil, or_false] at h
    rcases h with rfl | rfl | rfl | rfl | rfl | rfl <;> exact ⟨_, rfl⟩

section

variable {s : Surroundings} {c : ResearchConfig} {risk : RiskConfig} {events : List MarketEvent} {trialCount : Nat}

/-- The slice can be replayed with this lookback. -/
def Replays (events : List MarketEvent) (lookback : Nat) (x : Nat × Nat) : Prop :=
  lookback ≤ MomentumStrategy.vectorMaxSize ∧ 0 ≤ (events.getD x.1 {}).timestamp

theorem returns_foldTrades_iff (hsorted : events.Pairwise fun a b => a.timestamp ≤ b.timestamp)
    (hrisk : 0 < risk.minQuantity) {trial : Nat} {p : ParameterSet} {f : Nat} :
    Returns (foldTrades s c risk events trial p f) ↔
      ∀ x ∈ (c.fold (UInt64.ofNat events.length) (UInt64.ofNat f)).slices,
        InRange events x → Replays events p.lookback x := by
  unfold foldTrades FoldWindow.slices
  dsimp only
  generalize c.fold (UInt64.ofNat events.length) (UInt64.ofNat f) = w
  rw [List.forall_mem_append]
  have hvalidation : ∀ train : SliceResult,
      Returns (if w.vb < w.ve then do
          let oos ← runSlice s.fn events w.vb.toNat w.ve.toNat p risk c.symbol true (s.systemNow (.validation trial f))
          pure (train.trades, oos.trades)
        else do
          let oos : SliceResult ← Except.ok {}
          pure (train.trades, oos.trades)) ↔
        ∀ x ∈ (if w.vb < w.ve then [(w.vb.toNat, w.ve.toNat)] else []),
          InRange events x → Replays events p.lookback x := by
    intro train
    have hlast : ∀ oos : SliceResult, Returns (pure (train.trades, oos.trades) :
        Except String (List TradePosition × List TradePosition)) ↔ True :=
      fun oos => iff_of_true (returns_ok _) trivial
    by_cases hv : w.vb < w.ve
    · rw [if_pos hv, if_pos hv, returns_bind_and hlast, and_true, returns_runSlice_iff hsorted hrisk,
        List.forall_mem_singleton]
      rfl
    · rw [if_neg hv, if_neg hv]
      exact iff_of_true (returns_ok _) nofun
  by_cases ht : w.te ≠ 0
  · rw [if_pos ht, if_pos ht, returns_bind_and hvalidation, returns_runSlice_iff hsorted hrisk,
      List.forall_mem_singleton]
    rfl
  · rw [if_neg ht, if_neg ht, returns_bind_and hvalidation]
    exact and_congr_left fun _ => iff_of_true (returns_ok _) nofun

/-- **When a trial returns.** -/
theorem returns_runTrial_iff (hsorted : events.Pairwise fun a b => a.timestamp ≤ b.timestamp)
    (hrisk : 0 < risk.minQuantity) {idx : Nat} {p : ParameterSet} :
    Returns (runTrial s c risk events trialCount idx p) ↔
      c.objective ∈ objectives ∧ ∀ x ∈ replayedSlices c events, Replays events p.lookback x := by
  have hscores : ∀ trades : List (List TradePosition × List TradePosition),
      Returns (do
        let train := MetricsCalculator.calculate s.fn (trades.flatMap Prod.fst)
        let validation := MetricsCalculator.calculate s.fn (trades.flatMap Prod.snd)
        let trainScore ← score train c.objective
        let validationScore ← score validation c.objective
        return ({
          trialId := idx + 1, parameters := p, train, validation, trainScore, validationScore
          overfitGap := trainScore - validationScore
          deflatedSharpe := deflatedSharpe s.fn validation.sharpe validation.trades trialCount
          eligible := decide (c.minValidationTrades ≤ validation.trades) } : TrialResult)) ↔
        c.objective ∈ objectives := by
    intro trades
    constructor
    · intro h
      obtain ⟨trainScore, hscore, -⟩ := returns_bind_iff.mp h
      exact returns_score_iff.mp ⟨trainScore, hscore⟩
    · intro h
      obtain ⟨trainScore, htrain⟩ := returns_score_iff.mpr h
      obtain ⟨validationScore, hvalidation⟩ := returns_score_iff.mpr h
      exact returns_bind_iff.mpr ⟨trainScore, htrain,
        returns_bind_iff.mpr ⟨validationScore, hvalidation, returns_ok _⟩⟩
  have hfolds : Returns ((List.range (c.folds (UInt64.ofNat events.length)).toNat).mapM
      (foldTrades s c risk events idx p)) ↔ ∀ x ∈ replayedSlices c events, Replays events p.lookback x := by
    rw [returns_mapM_iff]
    simp only [returns_foldTrades_iff hsorted hrisk, replayedSlices, List.mem_filter, List.mem_flatMap,
      decide_eq_true_eq]
    constructor
    · rintro h x ⟨⟨f, hf, hx⟩, hin⟩
      exact h f hf x hx hin
    · intro h f hf x hx hin
      exact h x ⟨⟨f, hf, hx⟩, hin⟩
  unfold runTrial
  rw [returns_bind_and hscores, hfolds, and_comm]

/-- A trial with an unknown objective throws, whatever its slices do. -/
theorem runTrial_unsupported (hobjective : c.objective ∉ objectives) (idx : Nat) (p : ParameterSet) :
    ∃ what, runTrial s c risk events trialCount idx p = .error what := by
  unfold runTrial
  cases htrades : (List.range (c.folds (UInt64.ofNat events.length)).toNat).mapM (foldTrades s c risk events idx p) with
  | error what =>
    simp only [htrades]
    exact ⟨what, rfl⟩
  | ok trades =>
    simp only [htrades, score_unsupported hobjective]
    exact ⟨_, rfl⟩

/-! ## The grid -/

theorem foldlM_countDimension_pos {maxTrials : Nat} (dimensions : List Nat) {count total : Nat} (hcount : 0 < count)
    (h : dimensions.foldlM (countDimension maxTrials) count = .ok total) : 0 < total := by
  induction dimensions generalizing count with
  | nil => exact Except.ok.inj h ▸ hcount
  | cons dimension rest ih =>
    rw [List.foldlM_cons] at h
    obtain ⟨next, hnext, h⟩ := bind_eq_ok h
    obtain ⟨hdimension, -, rfl⟩ := countDimension_eq_ok.mp hnext
    exact ih (Nat.mul_pos hcount (Nat.pos_of_ne_zero hdimension)) h

/-- A grid that is accepted has a parameter set. -/
theorem length_parameterSets_pos (h : checkedTrialCount c = .ok trialCount) : 0 < (parameterSets c).length := by
  have hdimensions := h
  unfold checkedTrialCount at hdimensions
  split at hdimensions
  · cases hdimensions
  · rw [← checkedTrialCount_eq h]
    exact foldlM_countDimension_pos _ Nat.one_pos hdimensions

/-- Every lookback of such a grid is tried. -/
theorem exists_parameterSet (h : checkedTrialCount c = .ok trialCount) {lookback : Nat} (hl : lookback ∈ c.lookbacks) :
    ∃ p ∈ parameterSets c, p.lookback = lookback := by
  obtain ⟨p, hp⟩ := List.exists_mem_of_length_pos (length_parameterSets_pos h)
  simp only [parameterSets, List.mem_flatMap, List.mem_map] at hp
  obtain ⟨l, -, e, he, sl, hsl, tp, htp, slip, hslip, -⟩ := hp
  refine ⟨⟨lookback, e, sl, tp, slip⟩, ?_, rfl⟩
  simp only [parameterSets, List.mem_flatMap, List.mem_map]
  exact ⟨lookback, hl, e, he, sl, hsl, tp, htp, slip, hslip, rfl⟩

theorem lookback_of_mem {p : ParameterSet} (hp : p ∈ parameterSets c) : p.lookback ∈ c.lookbacks := by
  simp only [parameterSets, List.mem_flatMap, List.mem_map] at hp
  obtain ⟨l, hl, e, -, sl, -, tp, -, slip, -, rfl⟩ := hp
  exact hl

end

/-! ## The workers -/

/-- `run` comes to start its workers. -/
structure StartsWorkers (c : ResearchConfig) (events : List MarketEvent) : Prop where
  grid : Returns (checkedTrialCount c)
  enough : ¬ UInt64.ofNat events.length < 50
  folds : c.folds (UInt64.ofNat events.length) ≠ 0

/-- `workers` -/
def workerCount (s : Surroundings) (c : ResearchConfig) : Nat :=
  let requested := if c.parallelism ≠ 0 then c.parallelism else max 1 s.hardwareConcurrency
  max 1 (min requested (parameterSets c).length)

/-- The threads of a run after a schedule. -/
def threads (s : Surroundings) (c : ResearchConfig) (risk : RiskConfig) (events : List MarketEvent)
    (schedule : List Nat) : WorkPool String TrialResult :=
  runPool s c risk events (parameterSets c) (workerCount s c) schedule

/-- No exception leaves a thread function, and what a trial throws ends `run` with an exception. -/
structure ErrorsDelivered (s : Surroundings) (input : ResearchConfig) (risk : RiskConfig)
    (events : List MarketEvent) : Prop where
  contained : ∀ schedule, (threads s (input.effective risk) risk events schedule).failure = none
  delivered : ∀ idx what, idx < (parameterSets (input.effective risk)).length →
    evaluateTrial s (input.effective risk) risk events (parameterSets (input.effective risk)) idx = .error what →
      ∃ what', run s input risk events = .error (.thrown what')

/-- The configurations and datasets on which no trial throws. -/
structure QuietTrials (c : ResearchConfig) (events : List MarketEvent) : Prop where
  objective : c.objective ∈ objectives
  /-- no slice starts before the epoch -/
  epoch : ∀ x ∈ replayedSlices c events, 0 ≤ (events.getD x.1 {}).timestamp
  lookbacks : replayedSlices c events ≠ [] → ∀ l ∈ c.lookbacks, l ≤ MomentumStrategy.vectorMaxSize

section

variable {s : Surroundings} {c input : ResearchConfig} {risk : RiskConfig} {events : List MarketEvent}

theorem quietTrials_iff (hgrid : Returns (checkedTrialCount c)) :
    QuietTrials c events ↔ ∀ p ∈ parameterSets c,
      c.objective ∈ objectives ∧ ∀ x ∈ replayedSlices c events, Replays events p.lookback x := by
  obtain ⟨trialCount, hcount⟩ := hgrid
  constructor
  · intro h p hp
    refine ⟨h.objective, fun x hx => ⟨?_, h.epoch x hx⟩⟩
    exact h.lookbacks (List.ne_nil_of_mem hx) p.lookback (lookback_of_mem hp)
  · intro h
    obtain ⟨p, hp⟩ := List.exists_mem_of_length_pos (length_parameterSets_pos hcount)
    refine ⟨(h p hp).1, fun x hx => ((h p hp).2 x hx).2, fun hsome l hl => ?_⟩
    obtain ⟨x, hx⟩ := List.exists_mem_of_ne_nil _ hsome
    obtain ⟨p, hp, rfl⟩ := exists_parameterSet hcount hl
    exact ((h p hp).2 x hx).1

theorem forall_evaluateTrial_iff (hsorted : events.Pairwise fun a b => a.timestamp ≤ b.timestamp)
    (hrisk : 0 < risk.minQuantity) (hgrid : Returns (checkedTrialCount c)) :
    (∀ idx < (parameterSets c).length, Returns (evaluateTrial s c risk events (parameterSets c) idx)) ↔
      QuietTrials c events := by
  have hevaluate : ∀ idx (hidx : idx < (parameterSets c).length),
      Returns (evaluateTrial s c risk events (parameterSets c) idx) ↔
        c.objective ∈ objectives ∧
          ∀ x ∈ replayedSlices c events, Replays events (parameterSets c)[idx].lookback x := by
    intro idx hidx
    unfold evaluateTrial
    rw [returns_runTrial_iff hsorted hrisk, List.getD_eq_getElem?_getD, List.getElem?_eq_getElem hidx,
      Option.getD_some]
  rw [quietTrials_iff hgrid, List.forall_mem_iff_getElem]
  exact forall_congr' fun idx => forall_congr' fun hidx => hevaluate idx hidx

theorem getD_mem_zipIdx {α : Type} {l : List α} {i : Nat} (hi : i < l.length) (d : α) : (l.getD i d, i) ∈ l.zipIdx := by
  rw [List.getD_eq_getElem?_getD, List.getElem?_eq_getElem hi, Option.getD_some]
  exact List.mem_zipIdx_iff_getElem?.mpr (List.getElem?_eq_getElem hi)

/-- A trial that throws ends the process. -/
theorem search_terminated (hstarts : StartsWorkers c events) {idx : Nat} (hidx : idx < (parameterSets c).length)
    {what : String} (h : evaluateTrial s c risk events (parameterSets c) idx = .error what) :
    ∃ what', search s c risk events = .error (.terminated what') := by
  obtain ⟨trialCount, hcount⟩ := hstarts.grid
  have hnot : ¬ Returns (runTrials s c risk events trialCount) := by
    intro hreturns
    unfold runTrials at hreturns
    have hone := returns_mapM_iff.mp hreturns ((parameterSets c).getD idx {}, idx) (getD_mem_zipIdx hidx {})
    unfold evaluateTrial at h
    rw [checkedTrialCount_eq hcount] at hone
    dsimp only at hone
    rw [h] at hone
    exact not_returns_error what hone
  obtain ⟨what', hfirst⟩ := not_returns_iff.mp hnot
  refine ⟨what', ?_⟩
  unfold search
  rw [hcount]
  show (if UInt64.ofNat events.length < 50 then _ else _) = _
  rw [if_neg hstarts.enough, if_neg hstarts.folds, hfirst]
  rfl

/-- An unknown objective is noticed by the workers. -/
theorem search_unsupported {trialCount : Nat} (hobjective : c.objective ∉ objectives)
    (hcount : checkedTrialCount c = .ok trialCount) (hevents : ¬ UInt64.ofNat events.length < 50)
    (hfolds : c.folds (UInt64.ofNat events.length) ≠ 0) :
    ∃ what, search s c risk events = .error (.terminated what) := by
  obtain ⟨what, hfirst⟩ : ∃ what, evaluateTrial s c risk events (parameterSets c) 0 = .error what :=
    runTrial_unsupported hobjective 0 _
  exact search_terminated ⟨⟨trialCount, hcount⟩, hevents, hfolds⟩ (length_parameterSets_pos hcount) hfirst

/-- The first thread comes to a trial that throws. -/
theorem exists_failure {idx : Nat} (hidx : idx < (parameterSets c).length) {what : String}
    (h : evaluateTrial s c risk events (parameterSets c) idx = .error what) :
    ∃ schedule, (threads s c risk events schedule).failure ≠ none := by
  have hpos : 0 < workerCount s c := Nat.lt_of_lt_of_le Nat.one_pos (le_max_left _ _)
  obtain ⟨others, hothers⟩ : ∃ others, (trialPool (parameterSets c) (workerCount s c)).workers =
      WorkPool.Worker.fetching :: others :=
    ⟨List.replicate (workerCount s c - 1) .fetching, by
      show List.replicate (workerCount s c) _ = _
      rw [← List.replicate_succ, Nat.sub_add_cancel hpos]⟩
  obtain ⟨steps, hsteps⟩ := @WorkPool.exists_failed _ _ _ (evaluateTrial s c risk events (parameterSets c))
    (parameterSets c).length _ others rfl hothers (Nat.zero_add _) ⟨idx, what, Nat.zero_le _, hidx, h⟩
  exact ⟨List.replicate steps 0, hsteps⟩

/-- A thread fails with what a trial has thrown. -/
theorem failure_thrown {schedule : List Nat} {what : String}
    (h : (threads s c risk events schedule).failure = some what) :
    ∃ idx, idx < (parameterSets c).length ∧ evaluateTrial s c risk events (parameterSets c) idx = .error what :=
  WorkPool.blamed_exec (workerCount s c) List.length_replicate schedule what h

end

/-- The example, with an objective that `score` does not know and one trial. -/
def calmarDocument : Json :=
  .object [("dataset", .string "data/btcusdt.csv"), ("symbol", .string "BTCUSDT"), ("objective", .string "calmar"),
    ("grid", .object [("lookback", .array [.integer 10]), ("entry_threshold", .array [.float (1 / 1000)])])]

def calmarResearch : ResearchConfig :=
  { dataset := "data/btcusdt.csv", symbol := "BTCUSDT", objective := "calmar", lookbacks := [10]
    entryThresholds := [1 / 1000] }

end Sentum.Research
