import Mathlib.Algebra.Order.Field.Rat
import Mathlib.Data.Rat.Floor
import Sentum.Lib.Interpolation
import Sentum.Lib.OrderStatistics
import Sentum.Research.HoldoutAnalysis

/-!
# Confidence intervals

A quantile is read off the values in order: `quantile` interpolates between the
two of them that are next to its place (`quantile_eq`).  So a greater `p` has no
smaller quantile, none leaves the range of the values, and the ends of
`makeInterval` stand on either side of its median (`interval_ordered`).
-/

namespace Sentum.Research

open Interpolation OrderStatistics

theorem clampUnit_mem (p : ℚ) : 0 ≤ clampUnit p ∧ clampUnit p ≤ 1 := by
  unfold clampUnit
  split
  · exact ⟨le_rfl, zero_le_one⟩
  · next hlo =>
    split
    · exact ⟨zero_le_one, le_rfl⟩
    · next hhi => exact ⟨not_lt.mp hlo, not_lt.mp hhi⟩

theorem clampUnit_mono {p q : ℚ} (h : p ≤ q) : clampUnit p ≤ clampUnit q := by
  unfold clampUnit
  split_ifs <;> linarith

/-- Where the quantile is read off. -/
def place (values : List ℚ) (p : ℚ) : ℚ := clampUnit p * ((values.length - 1 : Nat) : ℚ)

theorem place_mem (values : List ℚ) (p : ℚ) :
    0 ≤ place values p ∧ place values p ≤ (values.length - 1 : Nat) := by
  have hclamp := clampUnit_mem p
  have hlast : (0 : ℚ) ≤ (values.length - 1 : Nat) := Nat.cast_nonneg _
  exact ⟨mul_nonneg hclamp.1 hlast, mul_le_of_le_one_left hlast hclamp.2⟩

theorem place_mono (values : List ℚ) {p q : ℚ} (h : p ≤ q) : place values p ≤ place values q :=
  mul_le_mul_of_nonneg_right (clampUnit_mono h) (Nat.cast_nonneg _)

/-- **The code interpolates** between the values in order. -/
theorem quantile_eq {values : List ℚ} (hne : values ≠ []) (p : ℚ) :
    quantile values p = interpolate (ascending values 0) (place values p) := by
  obtain ⟨hnonneg, hlast⟩ := place_mem values p
  have hpos := List.length_pos_iff.mpr hne
  have hentry : ∀ k, k ≤ values.length - 1 → (values.insertionSort (· ≤ ·)).getD k 0 = ascending values 0 k := by
    intro k hk
    rw [ascending, min_eq_left hk, ranked, List.getD_eq_getElem?_getD]
  have hceil : ⌈place values p⌉₊ ≤ values.length - 1 := Nat.ceil_le.mpr hlast
  have hfloor := (Nat.floor_le_ceil (place values p)).trans hceil
  have hpos' : clampUnit p * (((values.insertionSort (· ≤ ·)).length : ℚ) - 1) = place values p := by
    rw [List.length_insertionSort, place, Nat.cast_sub hpos, Nat.cast_one]
  unfold quantile
  rw [if_neg hne]
  dsimp only
  rw [hpos', Int.floor_toNat, Int.ceil_toNat, hentry _ hfloor, hentry _ hceil]
  exact (interpolate_eq_ite _ hnonneg).symm

section Ordered

variable {values : List ℚ} (hne : values ≠ [])
include hne

theorem quantile_mono {p q : ℚ} (h : p ≤ q) : quantile values p ≤ quantile values q := by
  rw [quantile_eq hne, quantile_eq hne]
  exact interpolate_mono (ascending_mono hne 0) (place_mem values p).1 (place_mono values h)

theorem quantile_mem (p : ℚ) :
    ascending values 0 0 ≤ quantile values p ∧ quantile values p ≤ ascending values 0 (values.length - 1) := by
  rw [quantile_eq hne]
  exact interpolate_mem (ascending_mono hne 0) (place_mem values p).1 (place_mem values p).2

end Ordered

theorem quantile_perm {values values' : List ℚ} (h : values'.Perm values) (p : ℚ) :
    quantile values' p = quantile values p := by
  have hempty : values' = [] ↔ values = [] := by
    rw [← List.length_eq_zero_iff, ← List.length_eq_zero_iff, h.length_eq]
  unfold quantile
  simp only [hempty, insertionSort_perm h]

theorem makeInterval_perm {values values' : List ℚ} (h : values'.Perm values) (confidence : ℚ) :
    makeInterval values' confidence = makeInterval values confidence := by
  unfold makeInterval
  simp only [quantile_perm h]

/-- **Main result.**  Quantiles do not fall in `p` and stay within the values,
intervals are in order, and the values may be in any. -/
theorem interval_ordered {values : List ℚ} (hne : values ≠ []) {confidence : ℚ} (hlo : 1 / 2 < confidence)
    (hhi : confidence < 1) :
    (∀ p q, p ≤ q → quantile values p ≤ quantile values q) ∧
    (∃ least greatest, IsLeast {v | v ∈ values} least ∧ IsGreatest {v | v ∈ values} greatest ∧
      (∀ p, least ≤ quantile values p ∧ quantile values p ≤ greatest) ∧
      let interval := makeInterval values confidence
      least ≤ interval.lower ∧ interval.lower ≤ interval.median ∧ interval.median ≤ interval.upper ∧
        interval.upper ≤ greatest) ∧
    ∀ values' : List ℚ, values'.Perm values →
      (∀ p, quantile values' p = quantile values p) ∧
      makeInterval values' confidence = makeInterval values confidence := by
  have hbounds := ascending_bounds hne 0
  have hrange := quantile_mem hne
  refine ⟨fun p q => quantile_mono hne, ?_, ?_⟩
  · refine ⟨_, _, hbounds.1, hbounds.2, hrange, ?_⟩
    intro interval
    refine ⟨(hrange _).1, quantile_mono hne ?_, quantile_mono hne ?_, (hrange _).2⟩ <;> linarith
  · intro values' hperm
    exact ⟨quantile_perm hperm, makeInterval_perm hperm confidence⟩

/-- The default confidence level, on four profits out of order. -/
theorem interval_ordered_fourProfits :
    let interval := makeInterval [5, -2, 9, 1] (95 / 100)
    interval.lower ≤ interval.median ∧ interval.median ≤ interval.upper := by
  have hne : ([5, -2, 9, 1] : List ℚ) ≠ [] := List.cons_ne_nil _ _
  have hlo : (1 : ℚ) / 2 < 95 / 100 := by norm_num
  have hhi : (95 : ℚ) / 100 < 1 := by norm_num
  obtain ⟨-, ⟨_, _, -, -, -, -, hlower, hupper, -⟩, -⟩ := interval_ordered hne hlo hhi
  exact ⟨hlower, hupper⟩

end Sentum.Research
