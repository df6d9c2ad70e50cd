import Sentum.Lib.Histogram
import Sentum.Lib.Run
import Sentum.Nlohmann.Json

/-!
# Latency histograms

`LatencyHistogram` counts latencies in 17 buckets and reads the percentiles of
its snapshot off the counts.  What it reports for a percentile is the upper
limit of the bucket of the exact one (`percentile_eq`), so it is never less; it
is more than the greatest observation when that is below the limit, which only
the last bucket looks at.
-/

namespace Sentum.Market

open Histogram OrderStatistics Run

/-! ## Algorithm -/

structure LatencyHistogram where
  buckets : Vector UInt64 17 := Vector.replicate 17 0
  count : UInt64 := 0
  total : UInt64 := 0
  max : UInt64 := 0
deriving DecidableEq

namespace LatencyHistogram

def limits : List UInt64 := [1, 2, 4, 8, 16, 32, 64, 128, 256, 512, 1000, 2000, 4000, 8000, 16000, 32000]

def bucketFor (value : UInt64) : Fin 17 :=
  ⟨limits.findIdx fun limit => decide (value ≤ limit), Nat.lt_succ_of_le List.findIdx_le_length⟩

def observe (h : LatencyHistogram) (microseconds : UInt64) : LatencyHistogram :=
  { buckets := h.buckets.set (bucketFor microseconds) (h.buckets[bucketFor microseconds] + 1)
    count := h.count + 1
    total := h.total + microseconds
    max := if h.max < microseconds then microseconds else h.max }

/-- The loop of `percentile` from bucket `i` on. -/
def readOff (h : LatencyHistogram) (target : UInt64) : Nat → UInt64 → List UInt64 → UInt64
  | _, _, [] => h.max
  | i, seen, bucket :: rest =>
    if target ≤ seen + bucket then limits.getD i h.max else readOff h target (i + 1) (seen + bucket) rest

def percentile (h : LatencyHistogram) (p : ℚ) : UInt64 :=
  if h.count = 0 then 0
  else readOff h (UInt64.ofNat ⌊(h.count.toNat : ℚ) * p + 999999 / 1000000⌋₊) 0 0 h.buckets.toList

def snapshot (h : LatencyHistogram) : Json :=
  .object [("count", .integer h.count.toNat),
    ("avg_us", .float (if h.count = 0 then 0 else h.total.toNat / h.count.toNat)),
    ("p50_us", .integer (h.percentile (50 / 100)).toNat), ("p95_us", .integer (h.percentile (95 / 100)).toNat),
    ("p99_us", .integer (h.percentile (99 / 100)).toNat), ("max_us", .integer h.max.toNat)]

/-- The histogram after these observations. -/
def observed (observations : List UInt64) : LatencyHistogram := exec observe {} observations

/-! ## Observations -/

/-- How many observations the first `n` buckets have. -/
def seen (observations : List UInt64) (n : Nat) : Nat :=
  observations.countP fun o => decide ((bucketFor o).val < n)

/-- The limits and the observations as numbers. -/
def levels : List Nat := limits.map UInt64.toNat

def values (observations : List UInt64) : List Nat := observations.map UInt64.toNat

theorem levels_sorted : levels.Pairwise (· ≤ ·) := by decide

theorem levels_pos : ∀ l ∈ levels, 0 < l := by decide

theorem bucketFor_eq (value : UInt64) : (bucketFor value).val = bucketOf levels value.toNat := by
  unfold bucketOf levels
  rw [List.findIdx_map]
  rfl

theorem length_values (observations : List UInt64) : (values observations).length = observations.length :=
  List.length_map ..

theorem values_ne_nil {observations : List UInt64} (hne : observations ≠ []) : values observations ≠ [] :=
  fun hnil => hne (List.map_eq_nil_iff.mp hnil)

/-- Counting by buckets, on either side. -/
theorem countP_bucketOf (observations : List UInt64) (P : Nat → Prop) [DecidablePred P] :
    ((values observations).countP fun v => decide (P (bucketOf levels v))) =
      observations.countP fun o => decide (P (bucketFor o).val) := by
  unfold values
  rw [List.countP_map]
  refine List.countP_congr fun o _ => ?_
  rw [bucketFor_eq]
  rfl

theorem seen_eq (observations : List UInt64) (n : Nat) :
    seen observations n = inFirst levels (values observations) n :=
  (countP_bucketOf observations (· < n)).symm

theorem seen_succ (observations : List UInt64) (n : Nat) :
    seen observations (n + 1) =
      seen observations n + observations.countP fun o => decide ((bucketFor o).val = n) := by
  rw [seen_eq, seen_eq, inFirst_succ, countP_bucketOf observations (· = n)]

theorem seen_all (observations : List UInt64) : seen observations 17 = observations.length := by
  rw [seen_eq, inFirst_all _ (by decide), length_values]

/-- **Invariant**: the counters after these observations. -/
structure Counts (h : LatencyHistogram) (observations : List UInt64) : Prop where
  count : h.count = UInt64.ofNat observations.length
  bucket : ∀ i : Fin 17, h.buckets[i] = UInt64.ofNat (observations.countP fun o => decide (bucketFor o = i))
  max_le : ∀ o ∈ observations, o.toNat ≤ h.max.toNat
  max_mem : h.max = 0 ∨ h.max ∈ observations

theorem counts_init : Counts {} [] where
  count := rfl
  bucket i := by
    rw [Fin.getElem_fin, Vector.getElem_replicate]
    rfl
  max_le o ho := absurd ho List.not_mem_nil
  max_mem := .inl rfl

theorem observe_max (h : LatencyHistogram) (microseconds : UInt64) :
    (h.observe microseconds).max = if h.max < microseconds then microseconds else h.max := rfl

theorem observe_bucket (h : LatencyHistogram) (microseconds : UInt64) (i : Fin 17) :
    (h.observe microseconds).buckets[i] =
      if bucketFor microseconds = i then h.buckets[i] + 1 else h.buckets[i] := by
  unfold observe
  rw [Fin.getElem_fin, Vector.getElem_set]
  by_cases hi : bucketFor microseconds = i
  · subst hi
    rw [if_pos rfl, if_pos rfl]
  · rw [if_neg hi, if_neg (mt Fin.ext hi), Fin.getElem_fin]

/-- **Step lemma.** -/
theorem Counts.observe {h : LatencyHistogram} {observations : List UInt64} (hc : Counts h observations)
    (microseconds : UInt64) : Counts (h.observe microseconds) (observations ++ [microseconds]) where
  count := by
    rw [List.length_append, List.length_singleton, UInt64.ofNat_add, ← hc.count]
    rfl
  bucket i := by
    rw [List.countP_append, UInt64.ofNat_add, ← hc.bucket i, List.countP_singleton, observe_bucket]
    simp only [decide_eq_true_eq]
    split
    · rfl
    · exact (UInt64.add_zero _).symm
  max_le o ho := by
    rw [observe_max]
    rcases List.mem_append.mp ho with ho | ho
    · have hle := hc.max_le o ho
      split
      · next hlt => exact hle.trans (UInt64.lt_iff_toNat_lt.mp hlt).le
      · exact hle
    · rw [List.mem_singleton.mp ho]
      split
      · exact le_rfl
      · next hnlt => exact UInt64.le_iff_toNat_le.mp (UInt64.not_lt.mp hnlt)
  max_mem := by
    rw [observe_max]
    split
    · exact .inr (List.mem_append_right _ (List.mem_singleton_self microseconds))
    · exact hc.max_mem.imp_right (List.mem_append_left _)

/-- **Run lemma.** -/
theorem counts_observed (observations : List UInt64) : Counts (observed observations) observations :=
  exec_history (fun before h => Counts h before) counts_init
    (fun _ _ microseconds hc => hc.observe microseconds) observations

/-! ## Percentiles -/

/-- The first bucket up to which `target` observations have been seen, in 64 bits. -/
def reached (observations : List UInt64) (target : Nat) : Nat :=
  (List.range 17).findIdx fun i => decide (target ≤ seen observations (i + 1) % 2 ^ 64)

variable {h : LatencyHistogram} {observations : List UInt64} {target i j : Nat} {p q : ℚ}

theorem reached_spec (ht : target ≤ observations.length % 2 ^ 64) :
    reached observations target ≤ 16 ∧
      target ≤ seen observations (reached observations target + 1) % 2 ^ 64 := by
  have hlt : reached observations target < (List.range 17).length := by
    refine List.findIdx_lt_length_of_exists ⟨16, by decide, decide_eq_true ?_⟩
    rwa [seen_all]
  have hfound : decide (target ≤ seen observations ((List.range 17)[reached observations target] + 1) % 2 ^ 64) :=
    List.findIdx_getElem (w := hlt)
  rw [List.getElem_range, decide_eq_true_eq] at hfound
  rw [List.length_range] at hlt
  exact ⟨Nat.le_of_lt_succ hlt, hfound⟩

theorem reached_le (h : target ≤ seen observations (i + 1) % 2 ^ 64) :
    reached observations target ≤ i := by
  by_contra hlt
  have hnot := of_decide_eq_false (List.not_of_lt_findIdx (not_le.mp hlt))
  rw [List.getElem_range] at hnot
  exact hnot h

theorem not_le_of_lt_reached (hi : i < reached observations target) :
    ¬ target ≤ seen observations (i + 1) % 2 ^ 64 := by
  intro hle
  exact absurd (reached_le hle) (not_le.mpr hi)

theorem ofNat_le_ofNat (ht : target < 2 ^ 64) (n : Nat) :
    UInt64.ofNat target ≤ UInt64.ofNat n ↔ target ≤ n % 2 ^ 64 := by
  rw [UInt64.le_iff_toNat_le, UInt64.toNat_ofNat_of_lt' ht, UInt64.toNat_ofNat']

/-- The loop: what has been seen is what the buckets before have. -/
theorem readOff_eq (ht : target ≤ observations.length % 2 ^ 64) (rest : List UInt64) (i : Nat)
    (hi : i ≤ reached observations target) (hj : reached observations target < i + rest.length)
    (hrest : ∀ k (hk : k < rest.length),
      rest[k] = UInt64.ofNat (observations.countP fun o => decide ((bucketFor o).val = i + k))) :
    readOff h (UInt64.ofNat target) i (UInt64.ofNat (seen observations i)) rest =
      limits.getD (reached observations target) h.max := by
  have hreach := (reached_spec ht).2
  have hsize : target < 2 ^ 64 := ht.trans_lt (Nat.mod_lt _ (by decide))
  -- over the buckets that are left, wherever the loop stands
  induction rest generalizing i with
  | nil => exact absurd hj (not_lt.mpr hi)
  | cons bucket rest ih =>
    have hseen : UInt64.ofNat (seen observations i) + bucket = UInt64.ofNat (seen observations (i + 1)) := by
      rw [seen_succ, UInt64.ofNat_add]
      exact congrArg (_ + ·) (hrest 0 (Nat.succ_pos _))
    unfold readOff
    rw [hseen]
    rcases Nat.eq_or_lt_of_le hi with rfl | hlt
    · rw [if_pos ((ofNat_le_ofNat hsize _).mpr hreach)]
    · rw [if_neg (mt (ofNat_le_ofNat hsize _).mp (not_le_of_lt_reached hlt))]
      refine ih (i + 1) hlt ?_ fun k hk => ?_
      · rw [List.length_cons] at hj
        omega
      · rw [Nat.add_right_comm]
        exact hrest (k + 1) (Nat.succ_lt_succ hk)

/-- Rounding up, for whole percents. -/
theorem floor_eq_ceil {k : Nat} (hp : p * 100 = k) (m : Nat) :
    ⌊(m : ℚ) * p + 999999 / 1000000⌋₊ = ⌈p * m⌉₊ := by
  have hx : (m : ℚ) * p = (m * k : Nat) / 100 := by
    rw [Nat.cast_mul, ← hp]
    ring
  have hnonneg : (0 : ℚ) ≤ (m * k : Nat) / 100 := by positivity
  rw [mul_comm p, hx, Nat.floor_eq_iff (by positivity)]
  constructor
  · have hlt := Nat.ceil_lt_add_one hnonneg
    have hgrid : 100 * ⌈((m * k : Nat) : ℚ) / 100⌉₊ < m * k + 100 := by
      have hcast : ((100 * ⌈((m * k : Nat) : ℚ) / 100⌉₊ : Nat) : ℚ) < ((m * k + 100 : Nat) : ℚ) := by
        push_cast at hlt ⊢
        linarith
      exact_mod_cast hcast
    have hle : ((100 * ⌈((m * k : Nat) : ℚ) / 100⌉₊ : Nat) : ℚ) ≤ ((m * k + 99 : Nat) : ℚ) :=
      Nat.cast_le.mpr (by omega)
    push_cast at hle ⊢
    linarith
  · have hle := Nat.le_ceil (((m * k : Nat) : ℚ) / 100)
    linarith

/-- The rank of a percentile among as many observations as `count` shows. -/
def countedRank (observations : List UInt64) (p : ℚ) : Nat := ⌈p * (observations.length % 2 ^ 64 : Nat)⌉₊

theorem countedRank_le (observations : List UInt64) (hp : p ≤ 1) :
    countedRank observations p ≤ observations.length % 2 ^ 64 := rank_le hp _

theorem count_toNat (observations : List UInt64) :
    (observed observations).count.toNat = observations.length % 2 ^ 64 := by
  rw [(counts_observed observations).count, UInt64.toNat_ofNat']

/-- **What is reported** is the limit of the bucket in which the rank is reached. -/
theorem percentile_eq {k : Nat} (hm : observations.length % 2 ^ 64 ≠ 0) (hp : p ≤ 1) (hk : p * 100 = k) :
    ((observed observations).percentile p).toNat =
      upper levels (observed observations).max.toNat (reached observations (countedRank observations p)) := by
  have hc := counts_observed observations
  have hcount : (observed observations).count ≠ 0 := by
    intro hzero
    rw [← count_toNat, hzero] at hm
    exact hm rfl
  have hrank := countedRank_le observations hp
  have hstart : UInt64.ofNat (seen observations 0) = 0 := by
    rw [seen_eq, inFirst_zero]
    rfl
  have hlast : reached observations (countedRank observations p) <
      0 + (observed observations).buckets.toList.length := by
    rw [Vector.length_toList, Nat.zero_add]
    exact Nat.lt_succ_of_le (reached_spec hrank).1
  have hbuckets : ∀ i (hi : i < (observed observations).buckets.toList.length),
      (observed observations).buckets.toList[i] =
        UInt64.ofNat (observations.countP fun o => decide ((bucketFor o).val = 0 + i)) := by
    intro i hi
    rw [Vector.length_toList] at hi
    rw [Vector.getElem_toList, Nat.zero_add]
    refine (hc.bucket ⟨i, hi⟩).trans (congrArg UInt64.ofNat (List.countP_congr fun o _ => ?_))
    rw [decide_eq_true_eq, decide_eq_true_eq, Fin.ext_iff]
  have hloop := readOff_eq (h := observed observations) hrank _ 0 (Nat.zero_le _) hlast hbuckets
  unfold percentile
  rw [if_neg hcount, count_toNat, floor_eq_ceil hk, ← hstart]
  exact (congrArg UInt64.toNat hloop).trans (List.getD_map _ _ UInt64.toNat).symm

/-- A greater share is reached in no earlier bucket. -/
theorem upper_reached_mono (observations : List UInt64) (hpq : p ≤ q) (hq : q ≤ 1) :
    upper levels (observed observations).max.toNat (reached observations (countedRank observations p)) ≤
      upper levels (observed observations).max.toNat (reached observations (countedRank observations q)) := by
  have hrank := countedRank_le observations hq
  obtain ⟨hlast, hreach⟩ := reached_spec hrank
  refine upper_mono levels_sorted (reached_le ((rank_mono hpq _).trans hreach)) fun hlength _ l hl => ?_
  -- the last bucket is read only if it has an observation
  have hsome : seen observations 16 < observations.length := by
    refine lt_of_le_of_ne List.countP_le_length fun hall => ?_
    have hnot := not_le_of_lt_reached (i := 15) (lt_of_lt_of_le (by decide) hlength)
    rw [hall] at hnot
    exact hnot hrank
  rw [seen_eq, ← List.length_map (f := UInt64.toNat)] at hsome
  obtain ⟨v, hv, hbucket⟩ := exists_of_inFirst_lt hsome
  obtain ⟨o, ho, rfl⟩ := List.mem_map.mp hv
  have hbeyond : levels.length ≤ bucketOf levels o.toNat := hbucket
  exact (lt_of_bucketOf hbeyond hl).le.trans ((counts_observed observations).max_le o ho)

/-! ## The order of the percentiles -/

/-- The limit of the bucket is at most the greatest observation, if it has a limit. -/
def WithinGreatest (observations : List UInt64) (i : Nat) : Prop :=
  ∀ limit ∈ limits[i]?, ∃ o ∈ observations, limit ≤ o

theorem upper_le_max_iff (observations : List UInt64) (i : Nat) :
    upper levels (observed observations).max.toNat i ≤ (observed observations).max.toNat ↔
      WithinGreatest observations i := by
  have hc := counts_observed observations
  unfold WithinGreatest upper levels
  rw [List.getD_map]
  cases hi : limits[i]? with
  | none =>
    rw [List.getD_eq_getElem?_getD, hi]
    exact iff_of_true le_rfl fun l hl => absurd hl (Option.not_mem_none l)
  | some limit =>
    rw [List.getD_eq_getElem?_getD, hi, Option.getD_some]
    constructor
    · intro hle l hl
      cases hl
      have hpos := levels_pos _ (List.mem_map_of_mem (List.mem_of_getElem? hi))
      rcases hc.max_mem with hzero | hmem
      · rw [hzero] at hle
        exact absurd hpos (not_lt.mpr hle)
      · exact ⟨_, hmem, UInt64.le_iff_toNat_le.mpr hle⟩
    · intro hwithin
      obtain ⟨o, ho, hle⟩ := hwithin limit rfl
      exact (UInt64.le_iff_toNat_le.mp hle).trans (hc.max_le o ho)

theorem nearestRank_le_upper_iff (hne : observations ≠ []) (hp : 0 < p) (hp1 : p ≤ 1) (hi : i ≤ 16) :
    nearestRank (values observations) 0 p ≤ upper levels (observed observations).max.toNat i ↔
      ⌈p * observations.length⌉₊ ≤ seen observations (i + 1) := by
  have hranked := ranked_nearestRank (values_ne_nil hne) 0 hp1
  have htop : ∀ v ∈ values observations, v ≤ (observed observations).max.toNat := by
    intro v hv
    obtain ⟨o, ho, rfl⟩ := List.mem_map.mp hv
    exact (counts_observed observations).max_le o ho
  have hpos := rank_pos hp (List.length_pos_iff.mpr hne)
  rw [ranked_le_upper_iff levels_sorted hranked htop hi, ← seen_eq, length_values]
  omega

/-- The percentiles that a snapshot reports. -/
def percents : List ℚ := [50 / 100, 95 / 100, 99 / 100]

/-- A snapshot with its percentiles in order and none below the exact one. -/
def PercentilesOrdered (observations : List UInt64) : Prop :=
  ∃ p50 p95 p99 greatest : Nat,
    let snapshot := (observed observations).snapshot
    let ofRank := nearestRank (values observations) 0
    (snapshot.find? "p50_us" = some (.integer p50) ∧ snapshot.find? "p95_us" = some (.integer p95) ∧
      snapshot.find? "p99_us" = some (.integer p99) ∧ snapshot.find? "max_us" = some (.integer greatest)) ∧
    (p50 ≤ p95 ∧ p95 ≤ p99 ∧ p99 ≤ greatest) ∧
    ofRank (50 / 100) ≤ p50 ∧ ofRank (95 / 100) ≤ p95 ∧ ofRank (99 / 100) ≤ p99

/-- The bucket of the exact 99th percentile has no limit above the greatest
observation.  From `2 ^ 64` observations on, when `count` has wrapped around,
the buckets read must also have the observations of the full ranks. -/
def LimitsReached (observations : List UInt64) : Prop :=
  if observations.length < 2 ^ 64 then
    WithinGreatest observations (bucketFor (UInt64.ofNat (nearestRank (values observations) 0 (99 / 100))))
  else if observations.length % 2 ^ 64 = 0 then nearestRank (values observations) 0 (99 / 100) = 0
  else
    (∀ p ∈ percents, ⌈p * observations.length⌉₊ ≤
      seen observations (reached observations (countedRank observations p) + 1)) ∧
    WithinGreatest observations (reached observations (countedRank observations (99 / 100)))

theorem percents_whole (hp : p ∈ percents) : 0 < p ∧ p ≤ 1 ∧ ∃ k : Nat, p * 100 = k := by
  simp only [percents, List.mem_cons, List.not_mem_nil, or_false] at hp
  rcases hp with rfl | rfl | rfl
  · exact ⟨by norm_num, by norm_num, 50, by norm_num⟩
  · exact ⟨by norm_num, by norm_num, 95, by norm_num⟩
  · exact ⟨by norm_num, by norm_num, 99, by norm_num⟩

theorem percents_mem : (50 / 100 : ℚ) ∈ percents ∧ (95 / 100 : ℚ) ∈ percents ∧ (99 / 100 : ℚ) ∈ percents := by
  unfold percents
  simp only [List.mem_cons, true_or, or_true, and_self]

theorem le_last_percent (hp : p ∈ percents) : p ≤ 99 / 100 := by
  simp only [percents, List.mem_cons, List.not_mem_nil, or_false] at hp
  rcases hp with rfl | rfl | rfl <;> norm_num

theorem integer_inj {x y : Nat} (h : some (Json.integer x) = some (.integer y)) : x = y :=
  Int.ofNat.inj (Json.integer.inj (Option.some.inj h))

/-- What a snapshot reports for a percentile. -/
def reported (observations : List UInt64) (p : ℚ) : Nat := ((observed observations).percentile p).toNat

theorem percentilesOrdered_iff (observations : List UInt64) :
    PercentilesOrdered observations ↔
      (reported observations (50 / 100) ≤ reported observations (95 / 100) ∧
        reported observations (95 / 100) ≤ reported observations (99 / 100) ∧
        reported observations (99 / 100) ≤ (observed observations).max.toNat) ∧
      ∀ p ∈ percents, nearestRank (values observations) 0 p ≤ reported observations p := by
  have hall : (∀ p ∈ percents, nearestRank (values observations) 0 p ≤ reported observations p) ↔
      nearestRank (values observations) 0 (50 / 100) ≤ reported observations (50 / 100) ∧
      nearestRank (values observations) 0 (95 / 100) ≤ reported observations (95 / 100) ∧
      nearestRank (values observations) 0 (99 / 100) ≤ reported observations (99 / 100) := by
    unfold percents
    rw [List.forall_mem_cons, List.forall_mem_cons, List.forall_mem_singleton]
  rw [hall]
  constructor
  · rintro ⟨p50, p95, p99, greatest, ⟨h50, h95, h99, hmax⟩, horder, hexact⟩
    rw [← integer_inj h50, ← integer_inj h95, ← integer_inj h99] at hexact
    rw [← integer_inj h50, ← integer_inj h95, ← integer_inj h99, ← integer_inj hmax] at horder
    exact ⟨horder, hexact⟩
  · rintro ⟨horder, hexact⟩
    exact ⟨_, _, _, _, ⟨rfl, rfl, rfl, rfl⟩, horder, hexact⟩

section Counting

variable (hm : observations.length % 2 ^ 64 ≠ 0)
include hm

theorem reported_eq (hp : p ∈ percents) : reported observations p =
    upper levels (observed observations).max.toNat (reached observations (countedRank observations p)) := by
  obtain ⟨-, hp1, k, hk⟩ := percents_whole hp
  exact percentile_eq hm hp1 hk

theorem reported_mono (hp : p ∈ percents) (hq : q ∈ percents) (hpq : p ≤ q) :
    reported observations p ≤ reported observations q := by
  rw [reported_eq hm hp, reported_eq hm hq]
  exact upper_reached_mono observations hpq (percents_whole hq).2.1

theorem nearestRank_le_reported_iff (hne : observations ≠ []) (hp : p ∈ percents) :
    nearestRank (values observations) 0 p ≤ reported observations p ↔
      ⌈p * observations.length⌉₊ ≤
        seen observations (reached observations (countedRank observations p) + 1) := by
  obtain ⟨hp0, hp1, -⟩ := percents_whole hp
  rw [reported_eq hm hp]
  exact nearestRank_le_upper_iff hne hp0 hp1 (reached_spec (countedRank_le observations hp1)).1

theorem ordered_iff_of_mod_ne_zero (hne : observations ≠ []) :
    PercentilesOrdered observations ↔
      (∀ p ∈ percents, ⌈p * observations.length⌉₊ ≤
        seen observations (reached observations (countedRank observations p) + 1)) ∧
      WithinGreatest observations (reached observations (countedRank observations (99 / 100))) := by
  have hexact := forall₂_congr fun p (hp : p ∈ percents) => nearestRank_le_reported_iff hm hne hp
  have hgreatest := upper_le_max_iff observations (reached observations (countedRank observations (99 / 100)))
  rw [← reported_eq hm percents_mem.2.2] at hgreatest
  have h50 := reported_mono hm percents_mem.1 percents_mem.2.1 (by norm_num)
  have h95 := reported_mono hm percents_mem.2.1 percents_mem.2.2 (by norm_num)
  rw [percentilesOrdered_iff, hexact, and_comm, ← hgreatest]
  exact and_congr_right fun _ => ⟨fun h => h.2.2, fun h => ⟨h50, h95, h⟩⟩

end Counting

/-- Counters that have wrapped around to 0 report 0. -/
theorem ordered_iff_of_mod_eq_zero (hne : observations ≠ []) (hm : observations.length % 2 ^ 64 = 0) :
    PercentilesOrdered observations ↔ nearestRank (values observations) 0 (99 / 100) = 0 := by
  have hcount : (observed observations).count = 0 := by
    rw [← UInt64.toNat_inj, count_toNat, hm]
    rfl
  have hzero : ∀ p, reported observations p = 0 := by
    intro p
    unfold reported percentile
    rw [if_pos hcount]
    rfl
  rw [percentilesOrdered_iff]
  simp only [hzero, Nat.zero_le, Nat.le_zero, true_and]
  constructor
  · intro h
    exact h _ percents_mem.2.2
  · intro h p hp
    have hle := nearestRank_mono (values_ne_nil hne) 0 (le_last_percent hp) (by norm_num)
    omega

theorem length_mod_ne_zero (hne : observations ≠ []) (hlen : observations.length < 2 ^ 64) :
    observations.length % 2 ^ 64 ≠ 0 := by
  rw [Nat.mod_eq_of_lt hlen]
  exact fun hzero => hne (List.length_eq_zero_iff.mp hzero)

/-- While no counter has wrapped around, the bucket read is that of the exact percentile. -/
theorem reached_eq_bucketFor (hne : observations ≠ []) (hlen : observations.length < 2 ^ 64) (hp : 0 < p)
    (hp1 : p ≤ 1) :
    ⌈p * observations.length⌉₊ ≤ seen observations (reached observations (countedRank observations p) + 1) ∧
      reached observations (countedRank observations p) =
        bucketFor (UInt64.ofNat (nearestRank (values observations) 0 p)) := by
  have hranked := ranked_nearestRank (values_ne_nil hne) 0 hp1
  have hsmall : ∀ n, seen observations n % 2 ^ 64 = seen observations n := fun n =>
    Nat.mod_eq_of_lt (List.countP_le_length.trans_lt hlen)
  have hcounted : countedRank observations p = ⌈p * observations.length⌉₊ := by
    unfold countedRank
    rw [Nat.mod_eq_of_lt hlen]
  have hpos := rank_pos hp (List.length_pos_iff.mpr hne)
  have hreach := (reached_spec (countedRank_le observations hp1)).2
  rw [hsmall, hcounted] at hreach
  rw [hcounted]
  refine ⟨hreach, ?_⟩
  -- the value of the rank is an observation, and its bucket is the first with the rank
  obtain ⟨o, -, ho⟩ := List.mem_map.mp (mem_of_ranked hranked)
  rw [← ho, UInt64.ofNat_toNat, bucketFor_eq]
  rw [length_values, ← ho] at hranked
  have hbucket := fun n => bucketOf_ranked_lt_iff (n := n) levels_sorted hranked
  refine Nat.le_antisymm (reached_le ?_) (Nat.le_of_lt_add_one ((hbucket _).mpr ?_))
  · have hin := (hbucket (bucketOf levels o.toNat + 1)).mp (Nat.lt_add_one _)
    rw [hsmall, seen_eq]
    omega
  · rw [← seen_eq]
    omega

/-- Among themselves the percentiles are in order, and none is below the exact one. -/
theorem reported_of_length_lt (hne : observations ≠ []) (hlen : observations.length < 2 ^ 64) :
    reported observations (50 / 100) ≤ reported observations (95 / 100) ∧
      reported observations (95 / 100) ≤ reported observations (99 / 100) ∧
      ∀ p ∈ percents, nearestRank (values observations) 0 p ≤ reported observations p := by
  have hm := length_mod_ne_zero hne hlen
  refine ⟨reported_mono hm percents_mem.1 percents_mem.2.1 (by norm_num),
    reported_mono hm percents_mem.2.1 percents_mem.2.2 (by norm_num), fun p hp => ?_⟩
  obtain ⟨hp0, hp1, -⟩ := percents_whole hp
  exact (nearestRank_le_reported_iff hm hne hp).mpr (reached_eq_bucketFor hne hlen hp0 hp1).1

/-- **Main result: when a snapshot is in order**, for all observations.  With
fewer than `2 ^ 64` of them only the greatest one can be out of place
(`reported_of_length_lt`). -/
theorem percentiles_ordered_iff {observations : List UInt64} (hne : observations ≠ []) :
    PercentilesOrdered observations ↔ LimitsReached observations := by
  unfold LimitsReached
  split
  · next hlen =>
    have hm := length_mod_ne_zero hne hlen
    have hread := fun p (hp : p ∈ percents) =>
      reached_eq_bucketFor hne hlen (percents_whole hp).1 (percents_whole hp).2.1
    rw [ordered_iff_of_mod_ne_zero hm hne, (hread _ percents_mem.2.2).2]
    exact and_iff_right fun p hp => (hread p hp).1
  · split
    · next hm => exact ordered_iff_of_mod_eq_zero hne hm
    · next hm => exact ordered_iff_of_mod_ne_zero hm hne

/-- The 99th percentile is in the bucket without a limit, or in one with a
limit above the greatest latency. -/
theorem percentiles_ordered_iff_slow :
    PercentilesOrdered [700, 1000, 40000] ∧ ¬ PercentilesOrdered [700, 900] := by
  rw [percentiles_ordered_iff (List.cons_ne_nil _ _), percentiles_ordered_iff (List.cons_ne_nil _ _)]
  have hlast : bucketFor (UInt64.ofNat (nearestRank (values [700, 1000, 40000]) 0 (99 / 100))) = 16 := by
    decide +kernel
  have hmiddle : bucketFor (UInt64.ofNat (nearestRank (values [700, 900]) 0 (99 / 100))) = 10 := by decide +kernel
  unfold LimitsReached
  rw [if_pos (by decide), if_pos (by decide), hlast, hmiddle]
  refine ⟨fun limit hlimit => absurd hlimit (Option.not_mem_none limit), fun hwithin => ?_⟩
  obtain ⟨o, ho, hle⟩ := hwithin 1000 rfl
  rw [List.mem_cons, List.mem_singleton] at ho
  rcases ho with rfl | rfl
  · exact absurd hle (by decide)
  · exact absurd hle (by decide)

/-- One latency of 3 µs is reported with percentiles of 4 µs. -/
theorem single_observation_above_max :
    ¬ ∀ observations : List UInt64, observations ≠ [] → PercentilesOrdered observations := by
  intro h
  obtain ⟨-, -, p99, greatest, ⟨-, -, h99, hmax⟩, ⟨-, -, hle⟩, -⟩ := h [3] (List.cons_ne_nil _ _)
  have hp99 : p99 = 4 := (integer_inj h99).symm.trans (by decide +kernel)
  have hgreatest : greatest = 3 := (integer_inj hmax).symm.trans (by decide +kernel)
  omega

end LatencyHistogram

end Sentum.Market
