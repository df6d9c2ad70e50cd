import Mathlib.Data.Prod.Lex
import Sentum.Lib.FirstLeast
import Sentum.Research.HoldoutIsolation

/-!
# The selected candidate

The results are sorted by the comparator of the leaderboard, cut to its size
and searched for the first eligible trial.  The comparator is that of a
lexicographic key (`ranksBefore_iff`), so the search ends at the head of the
sort, which every cut keeps: the first of the best eligible trials
(`selection_correct`).
-/

namespace Sentum.Research

open Sentum Market Risk Backtest FirstLeast Returning

/-! ## What is to be selected -/

/-- `a` has the better scores. -/
def Outranks (a b : TrialResult) : Prop :=
  b.validationScore < a.validationScore ∨ a.validationScore = b.validationScore ∧
    (b.deflatedSharpe < a.deflatedSharpe ∨ a.deflatedSharpe = b.deflatedSharpe ∧
      (b.parameterStabilityScore < a.parameterStabilityScore ∨
        a.parameterStabilityScore = b.parameterStabilityScore ∧ |a.overfitGap| < |b.overfitGap|))

/-- Eligible, and no eligible trial has better scores. -/
structure Best (results : List TrialResult) (t : TrialResult) : Prop where
  mem : t ∈ results
  eligible : t.eligible = true
  maximal : ∀ u ∈ results, u.eligible = true → ¬ Outranks u t

/-- The lowest-numbered of the best trials. -/
structure Winner (results : List TrialResult) (t : TrialResult) : Prop extends Best results t where
  lowest : ∀ u, Best results u → t.trialId ≤ u.trialId

/-! ## What is selected -/

/-- From the results on: sorted, cut and searched. -/
def selectTrial (leaderboardSize : Nat) (results : List TrialResult) : Option TrialResult :=
  ((results.insertionSort fun a b => !ranksBefore b a).take leaderboardSize).find? fun t => t.eligible

/-- `run` from the results on. -/
def conclude (s : Surroundings) (c : ResearchConfig) (risk : RiskConfig) (events : List MarketEvent)
    (out : ResearchSummary) (results : List TrialResult) : Except Failure ResearchSummary :=
  let out := { out with
    results, leaderboard := (results.insertionSort fun a b => !ranksBefore b a).take c.leaderboardSize }
  match selectTrial c.leaderboardSize results with
  | none => .ok out
  | some selected => evaluateHoldout s c risk events out selected

/-! ## The comparator -/

/-- Less is better. -/
def scoreKey (t : TrialResult) : ℚ ×ₗ ℚ ×ₗ ℚ ×ₗ ℚ :=
  toLex (-t.validationScore, toLex (-t.deflatedSharpe, toLex (-t.parameterStabilityScore, |t.overfitGap|)))

/-- Eligible trials first. -/
def rankKey (t : TrialResult) : Bool ×ₗ ℚ ×ₗ ℚ ×ₗ ℚ ×ₗ ℚ := toLex (!t.eligible, scoreKey t)

theorem outranks_iff (a b : TrialResult) : Outranks a b ↔ scoreKey a < scoreKey b := by
  unfold Outranks scoreKey
  simp only [Prod.Lex.toLex_lt_toLex, neg_lt_neg_iff, neg_inj]

/-- One score of the comparator, and the ones after it. -/
theorem score_decides {x y : ℚ} {next : Bool} :
    (if x ≠ y then decide (y < x) else next) = true ↔ y < x ∨ x = y ∧ next = true := by
  by_cases h : x = y
  · rw [if_neg (not_not.mpr h)]
    simp [h]
  · rw [if_pos h]
    simp [h]

/-- The comparator is the order of the keys. -/
theorem ranksBefore_iff (a b : TrialResult) : ranksBefore a b = true ↔ rankKey a < rankKey b := by
  have hkey : rankKey a < rankKey b ↔
      (!a.eligible) < (!b.eligible) ∨ (!a.eligible) = (!b.eligible) ∧ Outranks a b := by
    rw [outranks_iff]
    exact Prod.Lex.toLex_lt_toLex
  rw [hkey]
  unfold ranksBefore
  cases a.eligible <;> cases b.eligible
  · simp only [ne_eq, not_true_eq_false, if_false, lt_self_iff_false, true_and, false_or, score_decides,
      decide_eq_true_eq]
    rfl
  · simp
  · simp
  · simp only [ne_eq, not_true_eq_false, if_false, lt_self_iff_false, true_and, false_or, score_decides,
      decide_eq_true_eq]
    rfl

/-- How `stable_sort` uses it: a total order, up to equal keys. -/
theorem not_ranksBefore_iff (a b : TrialResult) : (!ranksBefore b a) = true ↔ rankKey a ≤ rankKey b := by
  rw [Bool.not_eq_true', Bool.eq_false_iff, ne_eq, ranksBefore_iff, not_lt]

instance : Std.Total fun a b => (!ranksBefore b a) = true where
  total a b := by
    rw [not_ranksBefore_iff, not_ranksBefore_iff]
    exact le_total _ _

instance : IsTrans TrialResult fun a b => (!ranksBefore b a) = true where
  trans a b c := by
    rw [not_ranksBefore_iff, not_ranksBefore_iff, not_ranksBefore_iff]
    exact le_trans

theorem eligible_of_rankKey_le {a b : TrialResult} (h : rankKey a ≤ rankKey b) (hb : b.eligible = true) :
    a.eligible = true := by
  have hfirst : (!a.eligible) ≤ (!b.eligible) := Prod.Lex.monotone_fst _ _ h
  rw [hb] at hfirst
  cases ha : a.eligible with
  | true => rfl
  | false =>
    rw [ha] at hfirst
    exact absurd hfirst (by decide)

/-- Among eligible trials the scores decide. -/
theorem rankKey_le_iff {a b : TrialResult} (ha : a.eligible = true) (hb : b.eligible = true) :
    rankKey a ≤ rankKey b ↔ ¬ Outranks b a := by
  rw [outranks_iff, not_lt]
  unfold rankKey
  rw [ha, hb, Prod.Lex.toLex_le_toLex]
  simp

/-! ## The head of the leaderboard -/

/-- The comparator of the sort. -/
abbrev rankLe (a b : TrialResult) : Prop := (!ranksBefore b a) = true

/-- No cut drops the head, and only the head can be selected: if it is not
eligible, nothing is. -/
theorem selectTrial_eq_some {leaderboardSize : Nat} (hsize : 0 < leaderboardSize) {results : List TrialResult}
    {t : TrialResult} : selectTrial leaderboardSize results = some t ↔
      t.eligible = true ∧ ∃ rest, results.insertionSort rankLe = t :: rest := by
  obtain ⟨n, rfl⟩ : ∃ n, leaderboardSize = n + 1 := ⟨leaderboardSize - 1, by omega⟩
  have hsorted := List.pairwise_insertionSort rankLe results
  unfold selectTrial
  cases hs : results.insertionSort rankLe with
  | nil => simp
  | cons a rest =>
    rw [hs] at hsorted
    rw [List.take_succ_cons, List.find?_cons]
    cases ha : a.eligible with
    | true =>
      simp only [Option.some.injEq, List.cons.injEq]
      constructor
      · rintro rfl
        exact ⟨ha, rest, rfl, rfl⟩
      · rintro ⟨-, rest', h, -⟩
        exact h
    | false =>
      have hnone : (rest.take n).find? (fun t => t.eligible) = none := by
        rw [List.find?_eq_none]
        intro u hu hel
        have hle := (List.pairwise_cons.mp hsorted).1 u (List.mem_of_mem_take hu)
        rw [eligible_of_rankKey_le ((not_ranksBefore_iff a u).mp hle) hel] at ha
        cases ha
      simp only [hnone]
      refine iff_of_false (by simp) ?_
      rintro ⟨ht, rest', h⟩
      rw [(List.cons.inj h).1, ht] at ha
      cases ha

/-! ## The winner -/

section Winner

variable {results : List TrialResult} {t u : TrialResult}

theorem winner_of_head {rest : List TrialResult} (hids : results.Pairwise fun a b => a.trialId < b.trialId)
    (ht : t.eligible = true) (h : results.insertionSort rankLe = t :: rest) : Winner results t := by
  have hfirst := isFirst_head h
  refine ⟨⟨hfirst.mem, ht, fun u hu hel => ?_⟩, fun u hbest => ?_⟩
  · exact (rankKey_le_iff ht hel).mp ((not_ranksBefore_iff t u).mp (hfirst.least u hu))
  · have hle : rankLe u t :=
      (not_ranksBefore_iff u t).mpr ((rankKey_le_iff hbest.eligible ht).mpr (hbest.maximal t hfirst.mem ht))
    rcases hfirst.precedes hids hbest.mem hle with heq | hlt
    · exact heq ▸ Nat.le_refl _
    · exact hlt.le

/-- The head is eligible when anything is. -/
theorem exists_selected {leaderboardSize : Nat} (hsize : 0 < leaderboardSize) (hu : u ∈ results)
    (hel : u.eligible = true) : ∃ t, selectTrial leaderboardSize results = some t := by
  cases hs : results.insertionSort rankLe with
  | nil =>
    have hnil : results = [] := List.perm_nil.mp (hs ▸ (List.perm_insertionSort rankLe results).symm)
    rw [hnil] at hu
    cases hu
  | cons a rest =>
    have hle := (isFirst_head hs).least u hu
    have ha := eligible_of_rankKey_le ((not_ranksBefore_iff a u).mp hle) hel
    exact ⟨a, (selectTrial_eq_some hsize).mpr ⟨ha, rest, hs⟩⟩

theorem winner_unique (hids : results.Pairwise fun a b => a.trialId < b.trialId) (ht : Winner results t)
    (hu : Winner results u) : t = u := by
  have hid : t.trialId = u.trialId := le_antisymm (ht.lowest u hu.toBest) (hu.lowest t ht.toBest)
  have hnodup : (results.map TrialResult.trialId).Nodup := List.pairwise_map.mpr (hids.imp fun h => Nat.ne_of_lt h)
  exact List.inj_on_of_nodup_map hnodup ht.mem hu.mem hid

/-- **The search ends at the winner**, whatever the size of the leaderboard. -/
theorem selectTrial_iff {leaderboardSize : Nat} (hsize : 0 < leaderboardSize)
    (hids : results.Pairwise fun a b => a.trialId < b.trialId) :
    selectTrial leaderboardSize results = some t ↔ Winner results t := by
  constructor
  · intro h
    obtain ⟨ht, rest, hs⟩ := (selectTrial_eq_some hsize).mp h
    exact winner_of_head hids ht hs
  · intro h
    obtain ⟨a, ha⟩ := exists_selected hsize h.mem h.eligible
    obtain ⟨hel, rest, hs⟩ := (selectTrial_eq_some hsize).mp ha
    rw [ha, winner_unique hids (winner_of_head hids hel hs) h]

theorem selectTrial_size {size size' : Nat} (hsize : 0 < size) (hsize' : 0 < size')
    (hids : results.Pairwise fun a b => a.trialId < b.trialId) :
    selectTrial size results = selectTrial size' results :=
  Option.ext fun t => by rw [selectTrial_iff hsize hids, selectTrial_iff hsize' hids]

end Winner

/-! ## The end of a run -/

section Conclude

variable {s : Surroundings} {c : ResearchConfig} {risk : RiskConfig} {events : List MarketEvent}
  {out final : ResearchSummary} {results : List TrialResult}

/-- What the summary says of the selection. -/
theorem conclude_selected (hfresh : out.holdoutEvaluated = false)
    (h : conclude s c risk events out results = .ok final) :
    final.holdoutEvaluated = (selectTrial c.leaderboardSize results).isSome ∧
      final.selectedParameters =
        ((selectTrial c.leaderboardSize results).map TrialResult.parameters).getD out.selectedParameters := by
  unfold conclude at h
  cases hsel : selectTrial c.leaderboardSize results with
  | none =>
    rw [hsel] at h
    cases h
    exact ⟨hfresh, rfl⟩
  | some t =>
    rw [hsel] at h
    obtain ⟨slice, -, h⟩ := bind_eq_ok h
    obtain ⟨finalScore, -, h⟩ := bind_eq_ok h
    cases h
    exact ⟨rfl, rfl⟩

/-- The holdout is evaluated when some trial is eligible, and with the winner. -/
theorem conclude_winner (hsize : 0 < c.leaderboardSize)
    (hids : results.Pairwise fun a b => a.trialId < b.trialId) (hfresh : out.holdoutEvaluated = false)
    (h : conclude s c risk events out results = .ok final) :
    (final.holdoutEvaluated = true ↔ ∃ t ∈ results, t.eligible = true) ∧
      (final.holdoutEvaluated = true → ∃ t, Winner results t ∧ final.selectedParameters = t.parameters) := by
  obtain ⟨hheld, hsel⟩ := conclude_selected hfresh h
  rw [hheld, Option.isSome_iff_exists]
  refine ⟨⟨fun ⟨t, ht⟩ => ?_, fun ⟨u, hu, hel⟩ => exists_selected hsize hu hel⟩, fun ⟨t, ht⟩ => ?_⟩
  · have hwin := (selectTrial_iff hsize hids).mp ht
    exact ⟨t, hwin.mem, hwin.eligible⟩
  · rw [ht] at hsel
    exact ⟨t, (selectTrial_iff hsize hids).mp ht, hsel⟩

/-- **The right candidate is selected.**  The holdout is evaluated when some
trial is eligible, with the parameters of the lowest-numbered of the best
eligible trials; another size of the leaderboard changes neither. -/
theorem selection_correct (hsize : 0 < c.leaderboardSize)
    (hids : results.Pairwise fun a b => a.trialId < b.trialId) (hfresh : out.holdoutEvaluated = false)
    (h : conclude s c risk events out results = .ok final) :
    (final.holdoutEvaluated = true ↔ ∃ t ∈ results, t.eligible = true) ∧
      (final.holdoutEvaluated = true → ∃ t, Winner results t ∧ final.selectedParameters = t.parameters) ∧
      ∀ size final', 0 < size → conclude s { c with leaderboardSize := size } risk events out results = .ok final' →
        final'.holdoutEvaluated = final.holdoutEvaluated ∧
          final'.selectedParameters = final.selectedParameters := by
  obtain ⟨hheld, hsel⟩ := conclude_selected hfresh h
  obtain ⟨hiff, hwinner⟩ := conclude_winner hsize hids hfresh h
  refine ⟨hiff, hwinner, fun size final' hpos h' => ?_⟩
  obtain ⟨hheld', hsel'⟩ := conclude_selected hfresh h'
  have hsame : selectTrial size results = selectTrial c.leaderboardSize results := selectTrial_size hpos hsize hids
  rw [hheld', hsel', hheld, hsel]
  exact ⟨congrArg Option.isSome hsame, by rw [hsame]⟩

/-- Three trials; the second and the third are eligible, with equal scores. -/
def tiedTrials : List TrialResult :=
  [{ trialId := 1, parameters := { lookback := 10 }, validationScore := 9 },
    { trialId := 2, parameters := { lookback := 20 }, validationScore := 2, eligible := true },
    { trialId := 3, parameters := { lookback := 40 }, validationScore := 2, eligible := true }]

theorem selection_correct_tiedTrials : ∃ final, conclude probe exampleResearch shippedRisk [] {} tiedTrials = .ok final ∧
    (final.holdoutEvaluated = true ↔ ∃ t ∈ tiedTrials, t.eligible = true) := by
  have hids : tiedTrials.Pairwise fun a b => a.trialId < b.trialId := by decide
  have hends : (conclude probe exampleResearch shippedRisk [] {} tiedTrials).toBool = true := by decide +kernel
  cases h : conclude probe exampleResearch shippedRisk [] {} tiedTrials with
  | error what =>
    rw [h] at hends
    cases hends
  | ok final => exact ⟨final, rfl, (selection_correct (by decide) hids rfl h).1⟩

theorem runTrial_trialId {trialCount : Nat} {pi : ParameterSet × Nat} {t : TrialResult}
    (h : runTrial s c risk events trialCount pi.2 pi.1 = .ok t) : t.trialId = pi.2 + 1 := by
  obtain ⟨trades, -, h⟩ := bind_eq_ok h
  obtain ⟨trainScore, -, h⟩ := bind_eq_ok h
  obtain ⟨validationScore, -, h⟩ := bind_eq_ok h
  cases h
  rfl

theorem calculateStability_trialId (results : List TrialResult) :
    (calculateStability results).map TrialResult.trialId = results.map TrialResult.trialId := by
  unfold calculateStability
  split
  · rfl
  · rw [List.map_map]
    rfl

/-- Slot by slot, the trials are in the order of their numbers. -/
theorem runTrials_ordered {trialCount : Nat} (h : runTrials s c risk events trialCount = .ok results) :
    (calculateStability results).Pairwise fun a b => a.trialId < b.trialId := by
  have hids : results.map TrialResult.trialId = (parameterSets c).zipIdx.map fun pi => pi.2 + 1 :=
    map_of_mapM (fun _ _ => runTrial_trialId) h
  have hnumbers : ((parameterSets c).zipIdx.map fun pi => pi.2 + 1).Pairwise (· < ·) := by
    have hrange : ((parameterSets c).zipIdx.map Prod.snd).Pairwise (· < ·) := by
      rw [List.zipIdx_map_snd]
      exact List.pairwise_lt_range'
    exact List.pairwise_map.mpr ((List.pairwise_map.mp hrange).imp Nat.succ_lt_succ)
  refine List.pairwise_map.mp ?_
  rw [calculateStability_trialId, hids]
  exact hnumbers

/-- A run ends so, with the trials in the order of their numbers. -/
theorem run_concludes {input : ResearchConfig} (h : run s input risk events = .ok final) :
    ∃ out, out.holdoutEvaluated = false ∧
      final.results.Pairwise (fun a b => a.trialId < b.trialId) ∧
      conclude s (input.effective risk) risk events out final.results = .ok final := by
  unfold run at h
  obtain ⟨⟨out, selected⟩, hsearch, h⟩ := bind_eq_ok h
  obtain ⟨trialCount, results, hend⟩ := search_eq_ok hsearch
  have hresults : final.results = out.results := by
    cases selected with
    | none =>
      cases h
      rfl
    | some t =>
      obtain ⟨slice, -, h⟩ := bind_eq_ok h
      obtain ⟨finalScore, -, h⟩ := bind_eq_ok h
      cases h
      rfl
  have hleaderboard : out.leaderboard =
      (out.results.insertionSort fun a b => !ranksBefore b a).take (input.effective risk).leaderboardSize := by
    rw [hend.ranked]
    exact hend.leaderboard
  have hselected : selected = selectTrial (input.effective risk).leaderboardSize out.results := by
    unfold selectTrial
    rw [← hleaderboard]
    exact hend.selected
  rw [hresults]
  refine ⟨out, hend.fresh, hend.ranked ▸ runTrials_ordered hend.trials, ?_⟩
  unfold conclude
  rw [← hselected, ← hleaderboard]
  exact h

/-- Of a whole run. -/
theorem run_selects {input : ResearchConfig} (hsize : 0 < input.leaderboardSize)
    (h : run s input risk events = .ok final) :
    (final.holdoutEvaluated = true ↔ ∃ t ∈ final.results, t.eligible = true) ∧
      (final.holdoutEvaluated = true → ∃ t, Winner final.results t ∧ final.selectedParameters = t.parameters) := by
  obtain ⟨out, hfresh, hids, hend⟩ := run_concludes h
  exact conclude_winner hsize hids hfresh hend

end Conclude

end Sentum.Research
