import Sentum.Research.ResearchPlatform

/-!
# The holdout is out of sight

Two datasets of one length that agree before the holdout: every slice that
`search` replays ends before it, with its warmup, so the search comes to the
same results on both.
-/

namespace Sentum.Research

open Sentum Market Strategy Risk Trader Backtest ResearchConfig Returning

/-! ## Slices -/

section
variable {events events' : List MarketEvent} {r : Nat}

/-- A slice that ends before `r` only sees the events before `r`. -/
theorem slice_congr (hagree : events.take r = events'.take r) {first last : Nat} (h : last ≤ r) :
    slice events first last = slice events' first last := by
  have htake : events.take last = events'.take last := by
    have hcut := congrArg (List.take last) hagree
    rw [List.take_take, List.take_take, Nat.min_eq_left h] at hcut
    exact hcut
  rw [slice, slice, htake]

theorem warmedUp_congr (hagree : events.take r = events'.take r) {first : Nat} (h : first ≤ r)
    (p : ParameterSet) (warmup : Bool) : warmedUp events first p warmup = warmedUp events' first p warmup := by
  simp only [warmedUp, slice_congr hagree h]

theorem runSlice_congr (hlen : events.length = events'.length) (hagree : events.take r = events'.take r)
    {first last : Nat} (h : last ≤ r) (fn : Cmath) (p : ParameterSet) (risk : RiskConfig) (symbol : String)
    (warmup : Bool) (systemNow : Nat → TimePoint) :
    runSlice fn events first last p risk symbol warmup systemNow =
      runSlice fn events' first last p risk symbol warmup systemNow := by
  unfold runSlice
  rw [hlen]
  split
  · rfl
  · next hin =>
    have hfirst : first ≤ r := by omega
    rw [slice_congr hagree h, warmedUp_congr hagree hfirst]

end

/-! ## The search -/

theorem valid_effective {c : ResearchConfig} (hc : Valid c) (risk : RiskConfig) : Valid (c.effective risk) :=
  ⟨hc.train, hc.holdout, hc.folds, hc.leaderboard⟩

section
variable {c : ResearchConfig} {risk : RiskConfig} {s s' : Surroundings} {events events' : List MarketEvent}

/-- Training and validation of a fold end before the holdout. -/
theorem foldTrades_congr (hc : Valid c) (hn : ¬ UInt64.ofNat events.length < 50)
    (hfn : s.fn = s'.fn) (hnow : s.systemNow = s'.systemNow) (hlen : events.length = events'.length)
    (hagree : events.take (c.researchEnd (UInt64.ofNat events.length)).toNat =
      events'.take (c.researchEnd (UInt64.ofNat events.length)).toNat)
    (trial : Nat) (p : ParameterSet) {f : Nat} (hf : f < (c.folds (UInt64.ofNat events.length)).toNat) :
    foldTrades s c risk events trial p f = foldTrades s' c risk events' trial p f := by
  have b := splitBounds hc (UInt64.not_lt.mp hn)
  have hof : (UInt64.ofNat f).toNat = f :=
    UInt64.toNat_ofNat_of_lt' (Nat.lt_trans hf (c.folds (UInt64.ofNat events.length)).toNat_lt)
  have hfold : UInt64.ofNat f < c.folds (UInt64.ofNat events.length) := by
    rw [UInt64.lt_iff_toNat_lt, hof]
    exact hf
  have hve := UInt64.le_iff_toNat_le.mp (b.ve_le hfold)
  have hte : (c.fold (UInt64.ofNat events.length) (UInt64.ofNat f)).te.toNat ≤
      (c.researchEnd (UInt64.ofNat events.length)).toNat := by
    have hboundary := UInt64.le_iff_toNat_le.mp (b.boundary_le_ve hfold)
    rw [(b.foldSpec hfold).te_eq]
    omega
  unfold foldTrades
  rw [← hlen, hfn, hnow]
  simp only [runSlice_congr hlen hagree hte, runSlice_congr hlen hagree hve]

theorem runTrials_congr (hc : Valid c) (hn : ¬ UInt64.ofNat events.length < 50)
    (hfn : s.fn = s'.fn) (hnow : s.systemNow = s'.systemNow) (hlen : events.length = events'.length)
    (hagree : events.take (c.researchEnd (UInt64.ofNat events.length)).toNat =
      events'.take (c.researchEnd (UInt64.ofNat events.length)).toNat) (trialCount : Nat) :
    runTrials s c risk events trialCount = runTrials s' c risk events' trialCount := by
  refine mapM_congr fun pi _ => ?_
  unfold runTrial
  have hfolds : (List.range (c.folds (UInt64.ofNat events.length)).toNat).mapM
        (foldTrades s c risk events pi.2 pi.1) =
      (List.range (c.folds (UInt64.ofNat events.length)).toNat).mapM (foldTrades s' c risk events' pi.2 pi.1) :=
    mapM_congr fun f hf => foldTrades_congr hc hn hfn hnow hlen hagree pi.2 pi.1 (List.mem_range.mp hf)
  simp only [hfolds, ← hlen, hfn]

/-- What the search finds: results, leaderboard and selected trial. -/
def found (r : ResearchSummary × Option TrialResult) : List TrialResult × List TrialResult × Option TrialResult :=
  (r.1.results, r.1.leaderboard, r.2)

theorem search_congr (hc : Valid c)
    (hfn : s.fn = s'.fn) (hnow : s.systemNow = s'.systemNow) (hlen : events.length = events'.length)
    (hagree : events.take (c.researchEnd (UInt64.ofNat events.length)).toNat =
      events'.take (c.researchEnd (UInt64.ofNat events.length)).toNat) :
    (search s c risk events).map found = (search s' c risk events').map found := by
  unfold search
  cases checkedTrialCount c with
  | error what => rfl
  | ok trialCount =>
    simp only [Except.mapError, bind, Except.bind, ← hlen]
    split
    · rfl
    · next hn =>
      split
      · rfl
      · rw [runTrials_congr hc hn hfn hnow hlen hagree trialCount]
        cases runTrials s' c risk events' trialCount <;> rfl

/-- How a search that returns has come to its end. -/
structure SearchEnd (s : Surroundings) (c : ResearchConfig) (risk : RiskConfig) (events : List MarketEvent)
    (trialCount : Nat) (results : List TrialResult) (r : ResearchSummary × Option TrialResult) : Prop where
  counted : checkedTrialCount c = .ok trialCount
  large : 50 ≤ UInt64.ofNat events.length
  trials : runTrials s c risk events trialCount = .ok results
  ranked : r.1.results = calculateStability results
  leaderboard : r.1.leaderboard =
    ((calculateStability results).insertionSort fun a b => !ranksBefore b a).take c.leaderboardSize
  selected : r.2 = r.1.leaderboard.find? fun t => t.eligible
  /-- the holdout has not been looked at yet -/
  fresh : r.1.holdoutEvaluated = false
  unselected : r.1.selectedParameters = {}

theorem search_eq_ok {r : ResearchSummary × Option TrialResult} (h : search s c risk events = .ok r) :
    ∃ trialCount results, SearchEnd s c risk events trialCount results r := by
  unfold search at h
  obtain ⟨trialCount, hcount, h⟩ := bind_eq_ok h
  dsimp only at h
  split at h
  · cases h
  · next hlarge =>
    split at h
    · cases h
    · obtain ⟨results, hresults, h⟩ := bind_eq_ok h
      cases h
      exact ⟨trialCount, results, mapError_eq_ok hcount, UInt64.not_lt.mp hlarge, mapError_eq_ok hresults, rfl, rfl,
        rfl, rfl, rfl⟩

/-- What a run returns, by what its search has found. -/
theorem run_found {out : ResearchSummary} (h : run s c risk events = .ok out) :
    ∃ r, search s (c.effective risk) risk events = .ok r ∧ out.results = r.1.results ∧
      out.leaderboard = r.1.leaderboard ∧ out.holdoutEvaluated = r.2.isSome ∧
      out.selectedParameters = ((r.2.map TrialResult.parameters).getD {}) := by
  unfold run at h
  obtain ⟨⟨summary, selected⟩, hsearch, h⟩ := bind_eq_ok h
  obtain ⟨trialCount, results, hend⟩ := search_eq_ok hsearch
  refine ⟨(summary, selected), hsearch, ?_⟩
  cases selected with
  | none =>
    cases h
    exact ⟨rfl, rfl, hend.fresh, hend.unselected⟩
  | some trial =>
    obtain ⟨slice, -, h⟩ := bind_eq_ok h
    obtain ⟨finalScore, -, h⟩ := bind_eq_ok h
    cases h
    exact ⟨rfl, rfl, rfl, rfl⟩

/-- The final holdout was replayed with its setup. -/
theorem finalHoldout_setup {out : ResearchSummary} (h : run s c risk events = .ok out)
    (hheld : out.holdoutEvaluated = true) :
    ∃ slice, runSlice s.fn events (c.researchEnd (UInt64.ofNat events.length)).toNat events.length
        out.selectedParameters risk c.symbol true (s.systemNow .holdout) = .ok slice ∧
      out.finalHoldout = slice.metrics := by
  unfold run at h
  obtain ⟨⟨summary, selected⟩, hsearch, h⟩ := bind_eq_ok h
  obtain ⟨trialCount, results, hend⟩ := search_eq_ok hsearch
  cases selected with
  | none =>
    cases h
    cases hend.fresh.symm.trans hheld
  | some trial =>
    obtain ⟨slice, hslice, h⟩ := bind_eq_ok h
    obtain ⟨finalScore, -, h⟩ := bind_eq_ok h
    cases h
    exact ⟨slice, mapError_eq_ok hslice, rfl⟩

end

/-- **The holdout does not influence the selection.**  Before the holdout the
two datasets agree, so the search comes to the same end on both, and the
summaries agree in all that it decides. -/
theorem holdout_isolated {j : Json} {c : ResearchConfig} (h : loadResearchConfig j = .ok c)
    (risk : RiskConfig) {s s' : Surroundings} (hfn : s.fn = s'.fn) (hnow : s.systemNow = s'.systemNow)
    {events events' : List MarketEvent} (hlen : events.length = events'.length)
    (hagree : events.take (c.researchEnd (UInt64.ofNat events.length)).toNat =
      events'.take (c.researchEnd (UInt64.ofNat events.length)).toNat) :
    (search s (c.effective risk) risk events).map found = (search s' (c.effective risk) risk events').map found ∧
      ∀ out out', run s c risk events = .ok out → run s' c risk events' = .ok out' →
        out.results = out'.results ∧ out.leaderboard = out'.leaderboard ∧
          out.holdoutEvaluated = out'.holdoutEvaluated ∧ out.selectedParameters = out'.selectedParameters := by
  have hsame : (search s (c.effective risk) risk events).map found =
      (search s' (c.effective risk) risk events').map found :=
    search_congr (valid_effective (loadResearchConfig_valid h) risk) hfn hnow hlen hagree
  refine ⟨hsame, fun out out' hout hout' => ?_⟩
  obtain ⟨r, hr, hres, hlead, hheld, hsel⟩ := run_found hout
  obtain ⟨r', hr', hres', hlead', hheld', hsel'⟩ := run_found hout'
  rw [hr, hr'] at hsame
  simp only [Except.map, Except.ok.injEq, found, Prod.mk.injEq] at hsame
  obtain ⟨h1, h2, h3⟩ := hsame
  rw [hres, hres', hlead, hlead', hheld, hheld', hsel, hsel', h1, h2, h3]
  exact ⟨rfl, rfl, rfl, rfl⟩

/-! ## A crash in the holdout -/

def calm : List MarketEvent := (List.range 50).map fun i => btcEvent i 100

/-- The last price is another one. -/
def crashed : List MarketEvent := calm.take 49 ++ [btcEvent 49 1]

def probe : Surroundings := { fn := ⟨id, id⟩, draws := fun _ _ _ => 0, systemNow := fun _ k => seconds k }

theorem crashed_isolated : calm ≠ crashed ∧
    (search probe (exampleResearch.effective shippedRisk) shippedRisk calm).map found =
      (search probe (exampleResearch.effective shippedRisk) shippedRisk crashed).map found :=
  ⟨by decide +kernel,
    (holdout_isolated exampleResearch_loaded shippedRisk rfl rfl (by decide +kernel) (by decide +kernel)).1⟩

end Sentum.Research
