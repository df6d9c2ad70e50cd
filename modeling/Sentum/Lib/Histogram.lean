import Mathlib.Algebra.Order.Field.Rat
import Mathlib.Data.List.GetD
import Mathlib.Data.Rat.Floor
import Sentum.Lib.OrderStatistics

/-!
# Histograms

Values are counted in buckets: each goes to the first of the `limits` it does
not exceed, and to a last bucket without a limit when it exceeds them all.  The
buckets keep the order of the values, so the bucket of the `k`-th smallest value
can be read off the counts (`bucketOf_ranked_lt_iff`), and its upper limit is
never below the value (`ranked_le_upper_iff`).
-/

namespace Histogram

open OrderStatistics

variable {α : Type*} [LinearOrder α]

def bucketOf (limits : List α) (v : α) : Nat := limits.findIdx fun l => decide (v ≤ l)

/-- The upper limit of a bucket, `top` for the last one. -/
def upper (limits : List α) (top : α) (i : Nat) : α := limits.getD i top

/-- How many values there are in the first `n` buckets. -/
def inFirst (limits xs : List α) (n : Nat) : Nat := xs.countP fun v => decide (bucketOf limits v < n)

/-- The value at the nearest rank: the least that has the share `p` of the values at or below it. -/
def nearestRank (xs : List α) (fallback : α) (p : ℚ) : α := (ranked xs (⌈p * xs.length⌉₊ - 1)).getD fallback

variable {limits xs : List α} {top v : α} {i j k n : Nat}

theorem bucketOf_le_length (limits : List α) (v : α) : bucketOf limits v ≤ limits.length := List.findIdx_le_length

theorem inFirst_zero (limits xs : List α) : inFirst limits xs 0 = 0 :=
  List.countP_eq_zero.mpr fun _ _ h => Nat.not_lt_zero _ (of_decide_eq_true h)

theorem inFirst_succ (limits xs : List α) (n : Nat) :
    inFirst limits xs (n + 1) = inFirst limits xs n + xs.countP fun v => decide (bucketOf limits v = n) := by
  unfold inFirst
  induction xs with
  | nil => rfl
  | cons v xs ih =>
    simp only [List.countP_cons, ih, decide_eq_true_eq]
    split_ifs <;> omega

theorem inFirst_all (xs : List α) (hn : limits.length < n) : inFirst limits xs n = xs.length :=
  List.countP_eq_length.mpr fun v _ => decide_eq_true ((bucketOf_le_length limits v).trans_lt hn)

theorem exists_of_inFirst_lt (h : inFirst limits xs n < xs.length) : ∃ v ∈ xs, n ≤ bucketOf limits v := by
  by_contra hnone
  push Not at hnone
  exact absurd (List.countP_eq_length.mpr fun v hv => decide_eq_true (hnone v hv)) (Nat.ne_of_lt h)

/-- What has no bucket with a limit is beyond all limits. -/
theorem lt_of_bucketOf {l : α} (h : limits.length ≤ bucketOf limits v) (hl : l ∈ limits) : l < v :=
  not_le.mp (of_decide_eq_false (List.findIdx_eq_length.mp ((bucketOf_le_length limits v).antisymm h) l hl))

section Sorted

variable (hs : limits.Pairwise (· ≤ ·))
include hs

/-- The limits before that of the bucket are below the value. -/
theorem bucketOf_le_iff {l : α} (h : limits[i]? = some l) : bucketOf limits v ≤ i ↔ v ≤ l := by
  obtain ⟨hi, rfl⟩ := List.getElem?_eq_some_iff.mp h
  constructor
  · intro hle
    have hlt : bucketOf limits v < limits.length := hle.trans_lt hi
    have hv : v ≤ limits[bucketOf limits v] :=
      of_decide_eq_true (List.findIdx_getElem (p := fun l => decide (v ≤ l)) (w := hlt))
    rcases Nat.eq_or_lt_of_le hle with heq | hlt'
    · simpa only [heq] using hv
    · exact hv.trans (List.pairwise_iff_getElem.mp hs _ _ hlt hi hlt')
  · intro hv
    by_contra hlt
    exact absurd hv (of_decide_eq_false (List.not_of_lt_findIdx (not_le.mp hlt)))

theorem le_upper_iff (hv : v ≤ top) (hi : i ≤ limits.length) : v ≤ upper limits top i ↔ bucketOf limits v ≤ i := by
  unfold upper
  rcases Nat.lt_or_eq_of_le hi with hlt | rfl
  · rw [List.getD_eq_getElem _ _ hlt, bucketOf_le_iff hs (List.getElem?_eq_getElem hlt)]
  · rw [List.getD_eq_default _ _ le_rfl]
    exact iff_of_true hv (bucketOf_le_length limits v)

/-- Later buckets have greater limits, and the last one a greater `top` if it is
beyond all of them. -/
theorem upper_mono (hij : i ≤ j) (htop : limits.length ≤ j → i < limits.length → ∀ l ∈ limits, l ≤ top) :
    upper limits top i ≤ upper limits top j := by
  unfold upper
  by_cases hj : j < limits.length
  · rw [List.getD_eq_getElem _ _ (hij.trans_lt hj), List.getD_eq_getElem _ _ hj]
    rcases Nat.eq_or_lt_of_le hij with rfl | hlt
    · exact le_rfl
    · exact List.pairwise_iff_getElem.mp hs _ _ _ hj hlt
  · rw [List.getD_eq_default _ _ (not_lt.mp hj)]
    by_cases hi : i < limits.length
    · rw [List.getD_eq_getElem _ _ hi]
      exact htop (not_lt.mp hj) hi _ (List.getElem_mem hi)
    · rw [List.getD_eq_default _ _ (not_lt.mp hi)]

/-- **Buckets of ranks.**  A value is in the first `n` buckets if and only if its rank is. -/
theorem bucketOf_ranked_lt_iff (h : ranked xs k = some v) : bucketOf limits v < n ↔ k < inFirst limits xs n := by
  cases n with
  | zero =>
    rw [inFirst_zero]
    exact iff_of_false (Nat.not_lt_zero _) (Nat.not_lt_zero k)
  | succ i =>
    by_cases hi : i < limits.length
    · have hl := List.getElem?_eq_getElem hi
      unfold inFirst
      simp only [Nat.lt_succ_iff, bucketOf_le_iff hs hl]
      exact ranked_le_iff h
    · have hlast : limits.length < i + 1 := Nat.lt_succ_of_le (not_lt.mp hi)
      rw [inFirst_all xs hlast]
      exact iff_of_true ((bucketOf_le_length limits v).trans_lt hlast) (lt_of_ranked h)

theorem ranked_le_upper_iff (h : ranked xs k = some v) (htop : ∀ v ∈ xs, v ≤ top) (hi : i ≤ limits.length) :
    v ≤ upper limits top i ↔ k < inFirst limits xs (i + 1) := by
  rw [le_upper_iff hs (htop v (mem_of_ranked h)) hi, ← Nat.lt_succ_iff]
  exact bucketOf_ranked_lt_iff hs h

end Sorted

/-! ## Nearest ranks -/

section Ranks

variable {p q : ℚ} {n : Nat}

theorem rank_pos (hp : 0 < p) (hn : 0 < n) : 0 < ⌈p * n⌉₊ := Nat.ceil_pos.mpr (mul_pos hp (Nat.cast_pos.mpr hn))

theorem rank_le (hp : p ≤ 1) (n : Nat) : ⌈p * n⌉₊ ≤ n :=
  Nat.ceil_le.mpr (mul_le_of_le_one_left (Nat.cast_nonneg n) hp)

theorem rank_mono (hpq : p ≤ q) (n : Nat) : ⌈p * n⌉₊ ≤ ⌈q * n⌉₊ :=
  Nat.ceil_mono (mul_le_mul_of_nonneg_right hpq (Nat.cast_nonneg n))

end Ranks

section NearestRank

variable {p q : ℚ} (hne : xs ≠ []) (fallback : α)
include hne

theorem ranked_nearestRank (hp : p ≤ 1) :
    ranked xs (⌈p * xs.length⌉₊ - 1) = some (nearestRank xs fallback p) := by
  have hlen := List.length_pos_iff.mpr hne
  have hrank := rank_le hp xs.length
  have hk : ⌈p * xs.length⌉₊ - 1 < xs.length := by omega
  obtain ⟨y, hy⟩ := exists_ranked hk
  unfold nearestRank
  rw [hy, Option.getD_some]

theorem nearestRank_mono (hpq : p ≤ q) (hq : q ≤ 1) : nearestRank xs fallback p ≤ nearestRank xs fallback q :=
  ranked_mono (Nat.sub_le_sub_right (rank_mono hpq _) 1) (ranked_nearestRank hne fallback (hpq.trans hq))
    (ranked_nearestRank hne fallback hq)

end NearestRank

end Histogram
