import Mathlib.Data.List.GetD
import Sentum.Backtest.Drawdown
import Sentum.Research.ConfidenceIntervals

/-!
# Resampling the holdout

A sample draws as many profits as there were trades, and notes where they lead
and how far they fell on the way.  Whatever the generator draws, what
`monteCarlo` reports stays within what the trades allow, and its two intervals
and its probability agree with each other (`monte_carlo_consistent`): the falls
are at least as deep as the losses are great, and a sure gain or a sure loss
shows in the interval of the profit.
-/

namespace Sentum.Research

open OrderStatistics Interpolation RunningPeak Trader

/-! ## Quantiles of two lists -/

section
variable {β : Type*} {zs : List β} {f g : β → ℚ}

/-- **Greater values have greater quantiles.** -/
theorem quantile_map_le (hne : zs ≠ []) (h : ∀ b ∈ zs, f b ≤ g b) (p : ℚ) :
    quantile (zs.map f) p ≤ quantile (zs.map g) p := by
  have hf : zs.map f ≠ [] := mt List.map_eq_nil_iff.mp hne
  have hg : zs.map g ≠ [] := mt List.map_eq_nil_iff.mp hne
  have hplace : place (zs.map f) p = place (zs.map g) p := by
    unfold place
    rw [List.length_map, List.length_map]
  rw [quantile_eq hf, quantile_eq hg, hplace]
  exact interpolate_le (ascending_map_le h 0) (place_mem (zs.map g) p).1

theorem clampUnit_sub (p : ℚ) : clampUnit (1 - p) = 1 - clampUnit p := by
  unfold clampUnit
  split_ifs <;> linarith

/-- Quantiles of the negative values, from the other end. -/
theorem quantile_neg {values : List ℚ} (hne : values ≠ []) (p : ℚ) :
    quantile (values.map fun v => -v) p = -quantile values (1 - p) := by
  have hmap : (values.map fun v => -v) ≠ [] := mt List.map_eq_nil_iff.mp hne
  have hplace : place (values.map fun v => -v) p = place values p := by
    unfold place
    rw [List.length_map]
  have hother : place values (1 - p) = ((values.length - 1 : Nat) : ℚ) - place values p := by
    unfold place
    rw [clampUnit_sub]
    ring
  rw [quantile_eq hmap, quantile_eq hne, hplace, hother]
  exact interpolate_neg (fun k hk => ascending_neg hne 0 hk) (place_mem values p).1 (place_mem values p).2

theorem quantile_bounds {values : List ℚ} (hne : values ≠ []) {low high : ℚ} (h : ∀ v ∈ values, low ≤ v ∧ v ≤ high)
    (p : ℚ) : low ≤ quantile values p ∧ quantile values p ≤ high := by
  obtain ⟨hlo, hhi⟩ := quantile_mem hne p
  exact ⟨(h _ (ascending_mem hne 0 0)).1.trans hlo, hhi.trans (h _ (ascending_mem hne 0 _)).2⟩

/-- The ends of an interval, and its median between them. -/
theorem makeInterval_ordered {values : List ℚ} (hne : values ≠ []) {confidence : ℚ} (h : 0 ≤ confidence) :
    (makeInterval values confidence).lower ≤ (makeInterval values confidence).median ∧
      (makeInterval values confidence).median ≤ (makeInterval values confidence).upper := by
  constructor
  · exact quantile_mono hne (by linarith)
  · exact quantile_mono hne (by linarith)

end

/-! ## Samples -/

/-- A sample is made of the trades' profits. -/
structure Sampled (pnl : List ℚ) (path : ℚ × ℚ × ℚ) : Prop where
  drawn : ∃ profits : List ℚ, profits.length = pnl.length ∧ (∀ x ∈ profits, x ∈ pnl) ∧ path.1 = profits.sum ∧
    IsGreatest (falls profits) path.2.2

variable {draws : Draws} {pnl : List ℚ} {path : ℚ × ℚ × ℚ}

theorem sampled_resample (hdraws : ∀ seed size k, 0 < size → draws seed size k < size) (seed : Nat) (pnl : List ℚ)
    (s : Nat) : Sampled pnl ((resample draws seed pnl s).foldl addProfit (0, 0, 0)) := by
  refine ⟨resample draws seed pnl s, ?_, ?_, ?_, drawdown_path _⟩
  · unfold resample
    rw [List.length_map, List.length_range]
  · intro x hx
    obtain ⟨i, hi, rfl⟩ := List.mem_map.mp hx
    have hlt := hdraws seed pnl.length (s * pnl.length + i) (Nat.zero_lt_of_lt (List.mem_range.mp hi))
    rw [List.getD_eq_getElem _ _ hlt]
    exact List.getElem_mem hlt
  · rw [foldl_addProfit]
    exact (exact_pass (resample draws seed pnl s)).level

section
variable {low high : ℚ} (h : Sampled pnl path)
include h

theorem Sampled.total_mem (hlow : ∀ x ∈ pnl, low ≤ x) (hhigh : ∀ x ∈ pnl, x ≤ high) :
    pnl.length * low ≤ path.1 ∧ path.1 ≤ pnl.length * high := by
  obtain ⟨profits, hlength, hmem, htotal, -⟩ := h.drawn
  have hlo := List.card_nsmul_le_sum profits low fun x hx => hlow x (hmem x hx)
  have hhi := List.sum_le_card_nsmul profits high fun x hx => hhigh x (hmem x hx)
  rw [hlength, nsmul_eq_mul, ← htotal] at hlo hhi
  exact ⟨hlo, hhi⟩

theorem Sampled.fall_mem (hlow : ∀ x ∈ pnl, low ≤ x) :
    0 ≤ path.2.2 ∧ path.2.2 ≤ pnl.length * max 0 (-low) := by
  obtain ⟨profits, hlength, hmem, -, hfall⟩ := h.drawn
  refine ⟨hfall.2 ⟨0, 0, le_rfl, Nat.zero_le _, (sub_self _).symm⟩, ?_⟩
  have hle := falls_le (le_max_left 0 (-low)) (fun x hx => (neg_le_neg (hlow x (hmem x hx))).trans (le_max_right _ _))
    hfall.1
  rwa [hlength, nsmul_eq_mul] at hle

/-- From the beginning to the end it falls by what is lost. -/
theorem Sampled.loss_le_fall : -path.1 ≤ path.2.2 := by
  obtain ⟨profits, -, -, htotal, hfall⟩ := h.drawn
  refine hfall.2 ⟨0, profits.length, Nat.zero_le _, le_rfl, ?_⟩
  rw [level_length, htotal]
  exact (zero_sub _).symm

end

/-! ## The summary -/

/-- The part of the paths that end in a loss. -/
theorem losses_mem {paths : List (ℚ × ℚ × ℚ)} (hne : paths ≠ []) :
    let share := ((paths.filter fun path => decide (path.1 < 0)).length : ℚ) / paths.length
    0 ≤ share ∧ share ≤ 1 ∧ (share = 0 → ∀ path ∈ paths, 0 ≤ path.1) ∧ (share = 1 → ∀ path ∈ paths, path.1 < 0) := by
  have hpos : (0 : ℚ) < paths.length := Nat.cast_pos.mpr (List.length_pos_iff.mpr hne)
  have hle : ((paths.filter fun path => decide (path.1 < 0)).length : ℚ) ≤ paths.length :=
    Nat.cast_le.mpr (List.length_filter_le _ _)
  refine ⟨div_nonneg (Nat.cast_nonneg _) hpos.le, (div_le_one hpos).mpr hle, fun hzero path hpath => ?_,
    fun hone path hpath => ?_⟩
  · have hnone := (div_eq_zero_iff.mp hzero).resolve_right hpos.ne'
    rw [Nat.cast_eq_zero, List.length_eq_zero_iff, List.filter_eq_nil_iff] at hnone
    exact not_lt.mp fun hloss => hnone path hpath (decide_eq_true hloss)
  · have hall := (div_eq_one_iff_eq hpos.ne').mp hone
    rw [Nat.cast_inj, List.length_filter_eq_length_iff] at hall
    exact of_decide_eq_true (hall path hpath)

/-- **Main result.** -/
theorem monte_carlo_consistent (hdraws : ∀ seed size k, 0 < size → draws seed size k < size)
    {trades : List TradePosition} (hne : trades ≠ []) {samples : Nat} (hsamples : 0 < samples) {confidence : ℚ}
    (hconfidence : 0 ≤ confidence) (seed : Nat) {low high : ℚ} (hlow : ∀ t ∈ trades, low ≤ t.netProfit)
    (hhigh : ∀ t ∈ trades, t.netProfit ≤ high) :
    let m := monteCarlo draws trades samples confidence seed
    (trades.length * low ≤ m.netProfit.lower ∧ m.netProfit.lower ≤ m.netProfit.median ∧
      m.netProfit.median ≤ m.netProfit.upper ∧ m.netProfit.upper ≤ trades.length * high) ∧
    (0 ≤ m.maxDrawdown.lower ∧ m.maxDrawdown.lower ≤ m.maxDrawdown.median ∧
      m.maxDrawdown.median ≤ m.maxDrawdown.upper ∧ m.maxDrawdown.upper ≤ trades.length * max 0 (-low)) ∧
    (-m.netProfit.lower ≤ m.maxDrawdown.upper ∧ -m.netProfit.median ≤ m.maxDrawdown.median ∧
      -m.netProfit.upper ≤ m.maxDrawdown.lower) ∧
    (0 ≤ m.probabilityOfLoss ∧ m.probabilityOfLoss ≤ 1 ∧ (m.probabilityOfLoss = 0 → 0 ≤ m.netProfit.lower) ∧
      (m.probabilityOfLoss = 1 → m.netProfit.upper < 0)) := by
  have hrun : ¬ (trades = [] ∨ samples = 0) := fun hor => hor.elim hne hsamples.ne'
  unfold monteCarlo
  rw [if_neg hrun]
  dsimp only
  generalize hpnl : trades.map TradePosition.netProfit = pnl
  have hlength : trades.length = pnl.length := by rw [← hpnl, List.length_map]
  have hlow' : ∀ x ∈ pnl, low ≤ x := by
    intro x hx
    rw [← hpnl] at hx
    obtain ⟨t, ht, rfl⟩ := List.mem_map.mp hx
    exact hlow t ht
  have hhigh' : ∀ x ∈ pnl, x ≤ high := by
    intro x hx
    rw [← hpnl] at hx
    obtain ⟨t, ht, rfl⟩ := List.mem_map.mp hx
    exact hhigh t ht
  generalize hpaths : (List.range samples).map (fun s => (resample draws seed pnl s).foldl addProfit (0, 0, 0)) = paths
  have hcount : paths.length = samples := by rw [← hpaths, List.length_map, List.length_range]
  have hsome : paths ≠ [] := List.ne_nil_of_length_pos (hcount ▸ hsamples)
  have hsampled : ∀ path ∈ paths, Sampled pnl path := by
    intro path hpath
    rw [← hpaths] at hpath
    obtain ⟨s, -, rfl⟩ := List.mem_map.mp hpath
    exact sampled_resample hdraws seed pnl s
  have hprofits : paths.map (fun path => path.1) ≠ [] := mt List.map_eq_nil_iff.mp hsome
  have hfalls : paths.map (fun path => path.2.2) ≠ [] := mt List.map_eq_nil_iff.mp hsome
  have hprofit : ∀ p, pnl.length * low ≤ quantile (paths.map fun path => path.1) p ∧
      quantile (paths.map fun path => path.1) p ≤ pnl.length * high := by
    refine quantile_bounds hprofits fun v hv => ?_
    obtain ⟨path, hpath, rfl⟩ := List.mem_map.mp hv
    exact (hsampled path hpath).total_mem hlow' hhigh'
  have hfall : ∀ p, 0 ≤ quantile (paths.map fun path => path.2.2) p ∧
      quantile (paths.map fun path => path.2.2) p ≤ pnl.length * max 0 (-low) := by
    refine quantile_bounds hfalls fun v hv => ?_
    obtain ⟨path, hpath, rfl⟩ := List.mem_map.mp hv
    exact (hsampled path hpath).fall_mem hlow'
  have hloss : ∀ p, -quantile (paths.map fun path => path.1) (1 - p) ≤ quantile (paths.map fun path => path.2.2) p := by
    intro p
    rw [← quantile_neg hprofits, List.map_map]
    exact quantile_map_le hsome (fun path hpath => (hsampled path hpath).loss_le_fall) p
  obtain ⟨hshare, hshare', hnone, hall⟩ := losses_mem hsome
  rw [hcount] at hshare hshare' hnone hall
  rw [hlength]
  refine ⟨⟨(hprofit _).1, (makeInterval_ordered hprofits hconfidence).1, (makeInterval_ordered hprofits hconfidence).2,
    (hprofit _).2⟩, ⟨(hfall _).1, (makeInterval_ordered hfalls hconfidence).1,
    (makeInterval_ordered hfalls hconfidence).2, (hfall _).2⟩, ⟨?_, ?_, ?_⟩, hshare, hshare', ?_, ?_⟩
  · have hupper := hloss (1 - (1 - confidence) * (1 / 2))
    rwa [sub_sub_cancel] at hupper
  · have hmedian := hloss (1 / 2)
    rwa [show (1 : ℚ) - 1 / 2 = 1 / 2 by norm_num] at hmedian
  · exact hloss ((1 - confidence) * (1 / 2))
  · intro hzero
    obtain ⟨path, hpath, hleast⟩ := List.mem_map.mp (ascending_mem hprofits 0 0)
    have hge := (quantile_mem hprofits ((1 - confidence) * (1 / 2))).1
    rw [← hleast] at hge
    exact (hnone hzero path hpath).trans hge
  · intro hone
    obtain ⟨path, hpath, hgreatest⟩ :=
      List.mem_map.mp (ascending_mem hprofits 0 ((paths.map fun path => path.1).length - 1))
    have hle := (quantile_mem hprofits (1 - (1 - confidence) * (1 / 2))).2
    rw [← hgreatest] at hle
    exact hle.trans_lt (hall hone path hpath)

/-- A gain and a loss. -/
def gainAndLoss : List TradePosition := [{ netProfit := 5 }, { netProfit := -2 }]

/-- Each is drawn in turn. -/
theorem monte_carlo_consistent_two :
    let m := monteCarlo (fun _ size k => k % size) gainAndLoss 10 (95 / 100) 7
    (gainAndLoss.length : ℚ) * -2 ≤ m.netProfit.lower ∧ -m.netProfit.lower ≤ m.maxDrawdown.upper := by
  have hdraws : ∀ seed size k : Nat, 0 < size → (fun _ size k => k % size : Draws) seed size k < size :=
    fun _ _ k hsize => Nat.mod_lt k hsize
  have hlow : ∀ t ∈ gainAndLoss, (-2 : ℚ) ≤ t.netProfit := by decide +kernel
  have hhigh : ∀ t ∈ gainAndLoss, t.netProfit ≤ (5 : ℚ) := by decide +kernel
  have hsamples : 0 < 10 := by decide
  have hconfidence : (0 : ℚ) ≤ 95 / 100 := by norm_num
  have h := monte_carlo_consistent hdraws (List.cons_ne_nil _ _) hsamples hconfidence 7 hlow hhigh
  exact ⟨h.1.1, h.2.2.1.1⟩

end Sentum.Research
