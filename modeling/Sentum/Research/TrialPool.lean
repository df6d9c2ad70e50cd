import Sentum.Lib.WorkPool
import Sentum.Research.HoldoutIsolation

/-!
# The worker pool of the research runner

The threads of `ResearchRunner::run` take the trials off a shared counter.
Whatever the number of workers and the order of their steps, the results they
leave are those of one worker that evaluates the trials in order, and so are
the leaderboard and the selection made from them.

An exception leaves its thread, so `std::terminate` ends the run: it is the
failure of the pool.
-/

namespace Sentum.Research

open Sentum Market Risk Run Returning

/-! ## Algorithm -/

section

variable (s : Surroundings) (c : ResearchConfig) (risk : RiskConfig) (events : List MarketEvent)
  (ps : List ParameterSet)

/-- The trial of a worker that has taken `idx`. -/
def evaluateTrial (idx : Nat) : Except String TrialResult :=
  runTrial s c risk events ps.length idx (ps.getD idx {})

/-- The pool before the first step, `out.results` resized. -/
def trialPool (workers : Nat) : WorkPool String TrialResult :=
  WorkPool.init workers (List.replicate ps.length { trialId := 0, parameters := {} })

/-- The next step of worker `w`: `fetch_add`, the evaluation, or the store to the slot. -/
def workerStep : WorkPool String TrialResult → Nat → WorkPool String TrialResult :=
  WorkPool.step ps.length (evaluateTrial s c risk events ps)

/-- The pool after a schedule: which worker takes the next step, and so on. -/
def runPool (workers : Nat) (schedule : List Nat) : WorkPool String TrialResult :=
  exec (workerStep s c risk events ps) (trialPool ps workers) schedule

end

/-- What `run` makes of the results once the threads are joined. -/
structure Ranking where
  results : List TrialResult
  leaderboard : List TrialResult
  selected : Option TrialResult
deriving DecidableEq

def ranking (c : ResearchConfig) (results : List TrialResult) : Ranking :=
  let results := calculateStability results
  let leaderboard := (results.insertionSort fun a b => !ranksBefore b a).take c.leaderboardSize
  { results, leaderboard, selected := leaderboard.find? fun t => t.eligible }

/-! ## All schedules -/

variable {s : Surroundings} {c : ResearchConfig} {risk : RiskConfig} {events : List MarketEvent}
  {ps : List ParameterSet}

variable (s c risk events ps) in
theorem inv_runPool {workers : Nat} (hw : 0 < workers) (schedule : List Nat) :
    WorkPool.Inv ps.length (evaluateTrial s c risk events ps) (runPool s c risk events ps workers schedule) ∧
      (runPool s c risk events ps workers schedule).workers ≠ [] :=
  WorkPool.inv_exec hw List.length_replicate schedule

theorem result_of_finished {workers : Nat} (hw : 0 < workers) {schedule : List Nat}
    (hfin : (runPool s c risk events ps workers schedule).Finished) {i : Nat} (hi : i < ps.length) :
    ∃ hi' : i < (runPool s c risk events ps workers schedule).results.length,
      runTrial s c risk events ps.length i ps[i] =
        .ok (runPool s c risk events ps workers schedule).results[i] := by
  obtain ⟨hinv, hne⟩ := inv_runPool s c risk events ps hw schedule
  obtain ⟨hi', hok⟩ := hinv.result hfin hne hi
  refine ⟨hi', ?_⟩
  rw [← hok]
  unfold evaluateTrial
  rw [List.getD_eq_getElem?_getD, List.getElem?_eq_getElem hi, Option.getD_some]

/-- Two pools that finish leave the same results. -/
theorem results_eq_of_finished {workers workers' : Nat} (hw : 0 < workers) (hw' : 0 < workers')
    {schedule schedule' : List Nat} (hfin : (runPool s c risk events ps workers schedule).Finished)
    (hfin' : (runPool s c risk events ps workers' schedule').Finished) :
    (runPool s c risk events ps workers schedule).results =
      (runPool s c risk events ps workers' schedule').results := by
  refine List.ext_getElem ?_ fun i hi hi' => ?_
  · rw [(inv_runPool s c risk events ps hw schedule).1.slots,
      (inv_runPool s c risk events ps hw' schedule').1.slots]
  · rw [(inv_runPool s c risk events ps hw schedule).1.slots] at hi
    obtain ⟨_, hok⟩ := result_of_finished hw hfin hi
    obtain ⟨_, hok'⟩ := result_of_finished hw' hfin' hi
    exact Except.ok.inj (hok.symm.trans hok')

/-- **Main result: schedule independence.**  When all workers have returned,
every trial has been evaluated exactly once, its result is in its slot, and one
worker by itself would have finished with the same results, leaderboard and
selection. -/
theorem trials_schedule_independent {workers : Nat} (hw : 0 < workers) (schedule : List Nat)
    (hfin : (runPool s c risk events ps workers schedule).Finished) :
    let pool := runPool s c risk events ps workers schedule
    (∀ i, pool.evaluated.count i = if i < ps.length then 1 else 0) ∧
    pool.results.length = ps.length ∧
    (∀ i (hi : i < ps.length), ∃ hi' : i < pool.results.length,
      runTrial s c risk events ps.length i ps[i] = .ok pool.results[i]) ∧
    (∃ steps, (runPool s c risk events ps 1 (List.replicate steps 0)).Finished) ∧
    (∀ schedule', (runPool s c risk events ps 1 schedule').Finished →
      pool.results = (runPool s c risk events ps 1 schedule').results ∧
      ranking c pool.results = ranking c (runPool s c risk events ps 1 schedule').results) := by
  intro pool
  obtain ⟨hinv, hne⟩ := inv_runPool s c risk events ps hw schedule
  refine ⟨hinv.count_eq hfin hne, hinv.slots, fun i hi => result_of_finished hw hfin hi, ?_, ?_⟩
  · refine WorkPool.exists_finished (fun i hi => ?_) ps.length _ rfl rfl (Nat.zero_add _)
    obtain ⟨_, hok⟩ := hinv.result hfin hne hi
    exact ⟨_, hok⟩
  · intro schedule' hfin'
    have hsame := results_eq_of_finished hw Nat.one_pos hfin hfin'
    exact ⟨hsame, congrArg (ranking c) hsame⟩

/-- Two workers take a trial each, and the second one comes back first. -/
theorem trials_schedule_independent_two :
    let ps : List ParameterSet := [{}, { lookback := 30 }]
    let pool := runPool probe exampleResearch shippedRisk calm ps 2 [0, 1, 1, 1, 1, 0, 0, 0]
    pool.evaluated = [1, 0] ∧ ∀ i, pool.evaluated.count i = if i < 2 then 1 else 0 :=
  ⟨by decide +kernel, (trials_schedule_independent (by decide) _ (by decide +kernel)).1⟩

/-! ## The run -/

theorem length_flatMap_const {α β : Type} (l : List α) (f : α → List β) {k : Nat}
    (h : ∀ a ∈ l, (f a).length = k) : (l.flatMap f).length = l.length * k := by
  induction l with
  | nil => exact (Nat.zero_mul k).symm
  | cons a l ih =>
    rw [List.flatMap_cons, List.length_append, h a List.mem_cons_self,
      ih fun b hb => h b (List.mem_cons_of_mem a hb), List.length_cons, Nat.succ_mul, Nat.add_comm]

theorem length_parameterSets (c : ResearchConfig) :
    (parameterSets c).length = c.lookbacks.length * (c.entryThresholds.length * (c.stopLosses.length *
      (c.takeProfits.length * c.slippages.length))) := by
  unfold parameterSets
  refine length_flatMap_const _ _ fun _ _ => ?_
  refine length_flatMap_const _ _ fun _ _ => ?_
  refine length_flatMap_const _ _ fun _ _ => ?_
  refine length_flatMap_const _ _ fun _ _ => ?_
  exact List.length_map ..

/-- The division asks whether the product would be too large. -/
theorem countDimension_eq_ok {maxTrials count dimension next : Nat} :
    countDimension maxTrials count dimension = .ok next ↔
      dimension ≠ 0 ∧ count * dimension ≤ maxTrials ∧ next = count * dimension := by
  unfold countDimension
  split
  · next hzero => exact iff_of_false (fun h => by cases h) fun h => h.1 hzero
  · next hne =>
    have hguard := Nat.le_div_iff_mul_le (x := count) (y := maxTrials) (Nat.pos_of_ne_zero hne)
    split
    · next hlt => exact iff_of_false (fun h => by cases h) fun h => absurd (hguard.mpr h.2.1) (not_le.mpr hlt)
    · next hle =>
      rw [Except.ok.injEq, eq_comm]
      exact ⟨fun h => ⟨hne, hguard.mp (not_lt.mp hle), h⟩, fun h => h.2.2⟩

theorem foldlM_countDimension {maxTrials : Nat} (dimensions : List Nat) {count total : Nat}
    (h : dimensions.foldlM (countDimension maxTrials) count = .ok total) :
    total = dimensions.foldl (· * ·) count := by
  induction dimensions generalizing count with
  | nil => exact (Except.ok.inj h).symm
  | cons dimension rest ih =>
    rw [List.foldlM_cons] at h
    obtain ⟨next, hnext, h⟩ := bind_eq_ok h
    obtain ⟨-, -, rfl⟩ := countDimension_eq_ok.mp hnext
    exact ih h

/-- The trial count that is checked is the number of parameter sets. -/
theorem checkedTrialCount_eq {c : ResearchConfig} {trialCount : Nat}
    (h : checkedTrialCount c = .ok trialCount) : trialCount = (parameterSets c).length := by
  unfold checkedTrialCount at h
  split at h
  · cases h
  · rw [foldlM_countDimension _ h, length_parameterSets]
    simp only [List.foldl_cons, List.foldl_nil, Nat.one_mul, Nat.mul_assoc]

/-- **The pool and the search.**  The results a pool leaves for the parameter
sets of the grid are those the search goes on with. -/
theorem runTrials_of_finished {workers : Nat} (hw : 0 < workers) {schedule : List Nat}
    (hfin : (runPool s c risk events (parameterSets c) workers schedule).Finished) {trialCount : Nat}
    (hcount : checkedTrialCount c = .ok trialCount) :
    runTrials s c risk events trialCount =
      .ok (runPool s c risk events (parameterSets c) workers schedule).results := by
  have hslots := (inv_runPool s c risk events (parameterSets c) hw schedule).1.slots
  unfold runTrials
  refine mapM_of_getElem (by rw [List.length_zipIdx, hslots]) fun i hi hi' => ?_
  rw [hslots] at hi'
  obtain ⟨_, hok⟩ := result_of_finished hw hfin hi'
  rw [List.getElem_zipIdx, Nat.zero_add, checkedTrialCount_eq hcount]
  exact hok

/-- The summary of a search that has come to its end is the ranking of what
any pool leaves. -/
theorem search_of_finished {workers : Nat} (hw : 0 < workers) {schedule : List Nat}
    (hfin : (runPool s c risk events (parameterSets c) workers schedule).Finished)
    {r : ResearchSummary × Option TrialResult} (h : search s c risk events = .ok r) :
    let ranked := ranking c (runPool s c risk events (parameterSets c) workers schedule).results
    r.1.results = ranked.results ∧ r.1.leaderboard = ranked.leaderboard ∧ r.2 = ranked.selected := by
  obtain ⟨trialCount, results, hend⟩ := search_eq_ok h
  have htrials := hend.trials
  rw [runTrials_of_finished hw hfin hend.counted] at htrials
  cases htrials
  refine ⟨hend.ranked, hend.leaderboard, ?_⟩
  rw [hend.selected, hend.leaderboard]
  rfl

end Sentum.Research
