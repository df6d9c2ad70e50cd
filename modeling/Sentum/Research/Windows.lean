import Mathlib.Algebra.Order.Floor.Ring
import Mathlib.Data.Rat.Floor
import Mathlib.Tactic.Linarith
import Mathlib.Tactic.NormNum
import Sentum.Research.ResearchConfig

/-!
# Walk-forward windows

How `ResearchRunner::run` splits `n` events: the holdout at the end, the
initial training region at the front, and one validation window for each fold
in between.  All indices are `std::size_t`, so the arithmetic is modulo `2^64`.
-/

namespace Sentum.Research

/-- `std::size_t` of a share of the events. -/
def share (n : UInt64) (fraction : ℚ) : UInt64 := UInt64.ofNat ⌊(n.toNat : ℚ) * fraction⌋.toNat

namespace ResearchConfig

variable (c : ResearchConfig) (n : UInt64)

def holdoutN : UInt64 := max 1 (share n c.holdoutFraction)

def researchEnd : UInt64 := n - c.holdoutN n

/-- `std::clamp(events.size() * train_fraction, 2, research_end - 1)` -/
def initialTrain : UInt64 :=
  if share n c.trainFraction < 2 then 2
  else if c.researchEnd n - 1 < share n c.trainFraction then c.researchEnd n - 1
  else share n c.trainFraction

def remaining : UInt64 := c.researchEnd n - c.initialTrain n

def folds : UInt64 := min c.walkForwardFolds (c.remaining n)

def foldWidth : UInt64 := max 1 (c.remaining n / c.folds n)

end ResearchConfig

/-- Training is `[0, te)`, validation `[vb, ve)`. -/
structure FoldWindow where
  boundary : UInt64
  te : UInt64
  vb : UInt64
  ve : UInt64
deriving DecidableEq

def ResearchConfig.fold (c : ResearchConfig) (n f : UInt64) : FoldWindow :=
  let boundary := c.initialTrain n + f * c.foldWidth n
  let ve :=
    if f + 1 = c.folds n then c.researchEnd n
    else min (c.researchEnd n) (c.initialTrain n + (f + 1) * c.foldWidth n)
  { boundary, ve
    te := if c.purgeEvents < boundary then boundary - c.purgeEvents else 0
    vb := min ve (boundary + c.embargoEvents) }

/-- The event with this index is one that the fold validates on. -/
def FoldWindow.Validates (w : FoldWindow) (i : UInt64) : Prop := w.vb ≤ i ∧ i < w.ve

instance (w : FoldWindow) (i : UInt64) : Decidable (w.Validates i) :=
  inferInstanceAs (Decidable (w.vb ≤ i ∧ i < w.ve))

/-! ## The windows as natural numbers -/

theorem toNat_min (a b : UInt64) : (min a b).toNat = min a.toNat b.toNat := by
  show (if a ≤ b then a else b).toNat = _
  split
  · next h => rw [UInt64.le_iff_toNat_le] at h; omega
  · next h => rw [UInt64.le_iff_toNat_le] at h; omega

theorem toNat_max (a b : UInt64) : (max a b).toNat = max a.toNat b.toNat := by
  show (if a ≤ b then b else a).toNat = _
  split
  · next h => rw [UInt64.le_iff_toNat_le] at h; omega
  · next h => rw [UInt64.le_iff_toNat_le] at h; omega

/-- A share below one is at most the whole, and is not cut off. -/
theorem share_toNat {n : UInt64} {fraction : ℚ} (h0 : 0 ≤ fraction) (h1 : fraction ≤ 1) :
    (share n fraction).toNat = ⌊(n.toNat : ℚ) * fraction⌋.toNat ∧
      ((share n fraction).toNat : ℚ) ≤ n.toNat * fraction := by
  have hn : (0 : ℚ) ≤ n.toNat := Nat.cast_nonneg _
  have hfloor : (⌊(n.toNat : ℚ) * fraction⌋.toNat : ℚ) ≤ n.toNat * fraction := by
    have hnn : 0 ≤ ⌊(n.toNat : ℚ) * fraction⌋ := Int.floor_nonneg.mpr (mul_nonneg hn h0)
    have hcast : ((⌊(n.toNat : ℚ) * fraction⌋.toNat : ℤ) : ℚ) = ⌊(n.toNat : ℚ) * fraction⌋ := by
      rw [Int.toNat_of_nonneg hnn]
    rw [Int.cast_natCast] at hcast
    rw [hcast]
    exact Int.floor_le _
  have hle : ⌊(n.toNat : ℚ) * fraction⌋.toNat ≤ n.toNat := by
    have hmul : (n.toNat : ℚ) * fraction ≤ n.toNat := mul_le_of_le_one_right hn h1
    exact_mod_cast hfloor.trans hmul
  have hof : (share n fraction).toNat = ⌊(n.toNat : ℚ) * fraction⌋.toNat :=
    UInt64.toNat_ofNat_of_lt' (Nat.lt_of_le_of_lt hle n.toNat_lt)
  exact ⟨hof, hof ▸ hfloor⟩

namespace ResearchConfig

/-- **The split** of at least 50 events by an accepted configuration. -/
structure SplitBounds (c : ResearchConfig) (n : UInt64) : Prop where
  end_eq : (c.researchEnd n).toNat + (c.holdoutN n).toNat = n.toNat
  holdout_pos : 0 < (c.holdoutN n).toNat
  train_pos : 2 ≤ (c.initialTrain n).toNat
  remaining_eq : (c.initialTrain n).toNat + (c.remaining n).toNat = (c.researchEnd n).toNat
  folds_pos : 0 < (c.folds n).toNat
  folds_le : (c.folds n).toNat ≤ (c.remaining n).toNat
  width_eq : (c.foldWidth n).toNat = (c.remaining n).toNat / (c.folds n).toNat

theorem splitBounds {c : ResearchConfig} (hc : Valid c) {n : UInt64} (hn : 50 ≤ n) : SplitBounds c n := by
  have hn' : 50 ≤ n.toNat := UInt64.le_iff_toNat_le.mp hn
  obtain ⟨h0, h1⟩ := hc.holdout
  have hshare := (share_toNat (n := n) h0.le (by linarith : c.holdoutFraction ≤ 1)).2
  have hsmall : (share n c.holdoutFraction).toNat * 10 ≤ n.toNat * 4 := by
    have hq : ((share n c.holdoutFraction).toNat : ℚ) * 10 ≤ n.toNat * 4 := by
      have hnn : (0 : ℚ) ≤ n.toNat := Nat.cast_nonneg _
      nlinarith
    exact_mod_cast hq
  have hhold : (c.holdoutN n).toNat = max 1 (share n c.holdoutFraction).toNat := by
    rw [holdoutN, toNat_max]
    rfl
  have hend : (c.researchEnd n).toNat = n.toNat - (c.holdoutN n).toNat := by
    rw [researchEnd, UInt64.toNat_sub_of_le]
    rw [UInt64.le_iff_toNat_le]
    omega
  have htrain : 2 ≤ (c.initialTrain n).toNat ∧ (c.initialTrain n).toNat < (c.researchEnd n).toNat := by
    have hlast : (c.researchEnd n - 1).toNat = (c.researchEnd n).toNat - 1 := by
      rw [UInt64.toNat_sub_of_le]
      · rfl
      · rw [UInt64.le_iff_toNat_le]
        show 1 ≤ _
        omega
    have htwo : (2 : UInt64).toNat = 2 := rfl
    unfold initialTrain
    split
    · omega
    · next hlow =>
      rw [UInt64.lt_iff_toNat_lt] at hlow
      split
      · omega
      · next hhigh =>
        rw [UInt64.lt_iff_toNat_lt] at hhigh
        omega
  have hremaining : (c.remaining n).toNat = (c.researchEnd n).toNat - (c.initialTrain n).toNat := by
    rw [remaining, UInt64.toNat_sub_of_le]
    rw [UInt64.le_iff_toNat_le]
    omega
  have hfolds : (c.folds n).toNat = min c.walkForwardFolds.toNat (c.remaining n).toNat := toNat_min _ _
  have hwanted : 0 < c.walkForwardFolds.toNat := by
    have hne : c.walkForwardFolds.toNat ≠ 0 := fun h => hc.folds (UInt64.toNat_inj.mp h)
    omega
  have hwidth : (c.foldWidth n).toNat = (c.remaining n).toNat / (c.folds n).toNat := by
    have hpos : 1 ≤ (c.remaining n).toNat / (c.folds n).toNat := (Nat.one_le_div_iff (by omega)).mpr (by omega)
    rw [foldWidth, toNat_max, UInt64.toNat_div]
    exact max_eq_right hpos
  exact ⟨by omega, by omega, htrain.1, by omega, by omega, by omega, hwidth⟩

namespace SplitBounds

variable {c : ResearchConfig} {n : UInt64} (b : SplitBounds c n)

include b

/-- The folds fit between the initial training region and the holdout. -/
theorem folds_fit : (c.initialTrain n).toNat + (c.folds n).toNat * (c.foldWidth n).toNat ≤
    (c.researchEnd n).toNat := by
  have hmul := Nat.mul_div_le (c.remaining n).toNat (c.folds n).toNat
  have hrem := b.remaining_eq
  rw [b.width_eq]
  omega

theorem width_pos : 0 < (c.foldWidth n).toNat := by
  rw [b.width_eq]
  exact Nat.div_pos b.folds_le b.folds_pos

/-- The end of the `k`-th fold, counted from 0 for the start of the first. -/
theorem cut_toNat {k : UInt64} (hk : k ≤ c.folds n) :
    (c.initialTrain n + k * c.foldWidth n).toNat =
      (c.initialTrain n).toNat + k.toNat * (c.foldWidth n).toNat := by
  have hfit := b.folds_fit
  have hk' := Nat.mul_le_mul_right (c.foldWidth n).toNat (UInt64.le_iff_toNat_le.mp hk)
  have hlt := (c.researchEnd n).toNat_lt
  rw [UInt64.toNat_add, UInt64.toNat_mul, Nat.mod_eq_of_lt (a := k.toNat * _) (by omega),
    Nat.mod_eq_of_lt (by omega)]

/-- What one fold computes, as natural numbers. -/
structure FoldSpec (f : UInt64) : Prop where
  boundary_eq : (c.fold n f).boundary.toNat = (c.initialTrain n).toNat + f.toNat * (c.foldWidth n).toNat
  te_eq : (c.fold n f).te.toNat = (c.fold n f).boundary.toNat - c.purgeEvents.toNat
  ve_last : f.toNat + 1 = (c.folds n).toNat → (c.fold n f).ve = c.researchEnd n
  ve_inner : f.toNat + 1 < (c.folds n).toNat →
    (c.fold n f).ve.toNat = (c.initialTrain n).toNat + (f.toNat + 1) * (c.foldWidth n).toNat
  vb_eq : (c.fold n f).vb.toNat =
    min (c.fold n f).ve.toNat (((c.fold n f).boundary.toNat + c.embargoEvents.toNat) % 2 ^ 64)

theorem foldSpec {f : UInt64} (hf : f < c.folds n) : FoldSpec (c := c) (n := n) f := by
  have hlt : f.toNat < (c.folds n).toNat := UInt64.lt_iff_toNat_lt.mp hf
  have hnext : (f + 1).toNat = f.toNat + 1 := by
    have hbound := (c.folds n).toNat_lt
    rw [UInt64.toNat_add]
    exact Nat.mod_eq_of_lt (show f.toNat + 1 < 2 ^ 64 by omega)
  have hboundary := b.cut_toNat (UInt64.le_of_lt hf)
  have hcut := b.cut_toNat (k := f + 1) (by rw [UInt64.le_iff_toNat_le]; omega)
  have hfit := b.folds_fit
  refine ⟨hboundary, ?_, fun h => ?_, fun h => ?_, ?_⟩
  · simp only [fold]
    split
    · next hpurge =>
      rw [UInt64.toNat_sub_of_le _ _ (UInt64.le_of_lt hpurge)]
    · next hpurge =>
      rw [UInt64.lt_iff_toNat_lt] at hpurge
      show 0 = _
      omega
  · simp only [fold]
    rw [if_pos (UInt64.toNat_inj.mp (by omega))]
  · have hmul := Nat.mul_le_mul_right (c.foldWidth n).toNat h
    simp only [fold]
    rw [if_neg (fun he => by rw [← UInt64.toNat_inj] at he; omega), toNat_min, hcut, hnext]
    refine min_eq_right ?_
    rw [Nat.succ_mul] at hmul
    omega
  · simp only [fold]
    rw [toNat_min, UInt64.toNat_add]

theorem boundary_le_ve {f : UInt64} (hf : f < c.folds n) : (c.fold n f).boundary ≤ (c.fold n f).ve := by
  have hs := b.foldSpec hf
  have hfit := b.folds_fit
  rw [UInt64.lt_iff_toNat_lt] at hf
  rw [UInt64.le_iff_toNat_le, hs.boundary_eq]
  have hmul := Nat.mul_le_mul_right (c.foldWidth n).toNat (Nat.succ_le_of_lt hf)
  rw [Nat.succ_mul] at hmul
  rcases Nat.lt_or_eq_of_le (Nat.succ_le_of_lt hf) with hlast | hlast
  · rw [hs.ve_inner hlast, Nat.succ_mul]
    omega
  · rw [hs.ve_last hlast]
    omega

theorem ve_le {f : UInt64} (hf : f < c.folds n) : (c.fold n f).ve ≤ c.researchEnd n := by
  have hs := b.foldSpec hf
  have hfit := b.folds_fit
  rw [UInt64.lt_iff_toNat_lt] at hf
  rw [UInt64.le_iff_toNat_le]
  rcases Nat.lt_or_eq_of_le (Nat.succ_le_of_lt hf) with hlast | hlast
  · have hmul := Nat.mul_le_mul_right (c.foldWidth n).toNat (Nat.le_of_lt hlast)
    rw [Nat.succ_eq_add_one] at hmul
    rw [hs.ve_inner hlast]
    omega
  · exact Nat.le_of_eq (congrArg UInt64.toNat (hs.ve_last hlast))

/-- A fold ends where the folds after it may begin. -/
theorem ve_le_boundary {f g : UInt64} (hfg : f < g) (hg : g < c.folds n) :
    (c.fold n f).ve ≤ (c.fold n g).boundary := by
  have hs := b.foldSpec (UInt64.lt_trans hfg hg)
  have hs' := b.foldSpec hg
  rw [UInt64.lt_iff_toNat_lt] at hfg hg
  have hmul : (f.toNat + 1) * (c.foldWidth n).toNat ≤ g.toNat * (c.foldWidth n).toNat :=
    Nat.mul_le_mul_right _ hfg
  rw [UInt64.le_iff_toNat_le, hs.ve_inner (by omega), hs'.boundary_eq]
  omega

end SplitBounds

/-! ## When the windows are apart -/

/-- Training and validation of a fold share no event, nor do two validations
or a validation and the holdout, and without an embargo nothing is left out. -/
structure WindowsApart (c : ResearchConfig) (n : UInt64) : Prop where
  ordered : ∀ f < c.folds n, (c.fold n f).te ≤ (c.fold n f).boundary ∧
    (c.fold n f).boundary ≤ (c.fold n f).vb ∧ (c.fold n f).vb ≤ (c.fold n f).ve ∧
    (c.fold n f).ve ≤ c.researchEnd n ∧ c.researchEnd n < n
  training : ∀ f < c.folds n, ∀ i, (c.fold n f).Validates i → ¬ i < (c.fold n f).te
  disjoint : ∀ f < c.folds n, ∀ g < c.folds n, f ≠ g → ∀ i,
    (c.fold n f).Validates i → ¬ (c.fold n g).Validates i
  holdout : ∀ f < c.folds n, ∀ i, (c.fold n f).Validates i → i < c.researchEnd n
  covering : c.embargoEvents = 0 → ∀ i,
    (∃ f < c.folds n, (c.fold n f).Validates i) ↔ c.initialTrain n ≤ i ∧ i < c.researchEnd n

/-- Where the last validation window begins without an embargo. -/
def lastStart (c : ResearchConfig) (n : UInt64) : Nat :=
  (c.initialTrain n).toNat + ((c.folds n).toNat - 1) * (c.foldWidth n).toNat

namespace SplitBounds

variable {c : ResearchConfig} {n : UInt64} (b : SplitBounds c n)

include b

theorem boundary_le_lastStart {f : UInt64} (hf : f < c.folds n) :
    (c.fold n f).boundary.toNat ≤ c.lastStart n := by
  rw [(b.foldSpec hf).boundary_eq, lastStart]
  rw [UInt64.lt_iff_toNat_lt] at hf
  have hmul := Nat.mul_le_mul_right (c.foldWidth n).toNat (Nat.le_sub_one_of_lt hf)
  omega

/-- An embargo that does not wrap around only delays the validation. -/
theorem boundary_le_vb (he : c.lastStart n + c.embargoEvents.toNat < 2 ^ 64) {f : UInt64}
    (hf : f < c.folds n) : (c.fold n f).boundary ≤ (c.fold n f).vb := by
  have hlast := b.boundary_le_lastStart hf
  have hve := UInt64.le_iff_toNat_le.mp (b.boundary_le_ve hf)
  rw [UInt64.le_iff_toNat_le, (b.foldSpec hf).vb_eq, Nat.mod_eq_of_lt (by omega)]
  omega

theorem vb_le_ve {f : UInt64} (hf : f < c.folds n) : (c.fold n f).vb ≤ (c.fold n f).ve := by
  rw [UInt64.le_iff_toNat_le, (b.foldSpec hf).vb_eq]
  omega

/-- The fold that an event of the validation region falls into. -/
theorem exists_fold {i : UInt64} (hi : c.initialTrain n ≤ i) (hr : i < c.researchEnd n) :
    ∃ f < c.folds n, (c.fold n f).boundary ≤ i ∧ i < (c.fold n f).ve := by
  rw [UInt64.le_iff_toNat_le] at hi
  have hW := b.width_pos
  have hF := b.folds_pos
  -- the events behind the last full fold belong to the last fold
  obtain ⟨q, hq⟩ : ∃ q, q = (i.toNat - (c.initialTrain n).toNat) / (c.foldWidth n).toNat := ⟨_, rfl⟩
  obtain ⟨k, hk⟩ : ∃ k, k = min q ((c.folds n).toNat - 1) := ⟨_, rfl⟩
  have hof : (UInt64.ofNat k).toNat = k :=
    UInt64.toNat_ofNat_of_lt' (Nat.lt_trans (by omega) (c.folds n).toNat_lt)
  have hf : UInt64.ofNat k < c.folds n := by
    rw [UInt64.lt_iff_toNat_lt, hof]
    omega
  have hs := b.foldSpec hf
  have hlow : q * (c.foldWidth n).toNat ≤ i.toNat - (c.initialTrain n).toNat := by
    rw [hq]
    exact Nat.div_mul_le_self _ _
  have hhigh : i.toNat - (c.initialTrain n).toNat < (q + 1) * (c.foldWidth n).toNat := by
    rw [hq, Nat.mul_comm]
    exact Nat.lt_mul_div_succ _ hW
  have hmul : k * (c.foldWidth n).toNat ≤ q * (c.foldWidth n).toNat := Nat.mul_le_mul_right _ (by omega)
  refine ⟨UInt64.ofNat k, hf, ?_, ?_⟩
  · rw [UInt64.le_iff_toNat_le, hs.boundary_eq, hof]
    omega
  · rcases Nat.lt_or_eq_of_le (Nat.succ_le_of_lt (UInt64.lt_iff_toNat_lt.mp hf)) with hlast | hlast
    · have hqk : q = k := by omega
      rw [UInt64.lt_iff_toNat_lt, hs.ve_inner hlast, hof]
      rw [hqk] at hhigh
      omega
    · rw [hs.ve_last hlast]
      exact hr

end SplitBounds

/-- **The windows are apart** exactly when the embargo, counted from the start
of the last window, does not wrap around `2^64`. -/
theorem windowsApart_iff {j : Json} {c : ResearchConfig} (h : loadResearchConfig j = .ok c) {n : UInt64}
    (hn : 50 ≤ n) : WindowsApart c n ↔ c.lastStart n + c.embargoEvents.toNat < 2 ^ 64 := by
  have b := splitBounds (loadResearchConfig_valid h) hn
  have hend : c.researchEnd n < n := by
    have heq := b.end_eq
    have hpos := b.holdout_pos
    rw [UInt64.lt_iff_toNat_lt]
    omega
  have hte : ∀ f < c.folds n, (c.fold n f).te ≤ (c.fold n f).boundary := by
    intro f hf
    rw [UInt64.le_iff_toNat_le, (b.foldSpec hf).te_eq]
    exact Nat.sub_le _ _
  constructor
  · intro hw
    have hF := b.folds_pos
    have hlt := (c.folds n).toNat_lt
    have hof : (UInt64.ofNat ((c.folds n).toNat - 1)).toNat = (c.folds n).toNat - 1 :=
      UInt64.toNat_ofNat_of_lt' (Nat.lt_of_le_of_lt (Nat.sub_le _ _) hlt)
    have hf : UInt64.ofNat ((c.folds n).toNat - 1) < c.folds n := by
      rw [UInt64.lt_iff_toNat_lt, hof]
      omega
    have hs := b.foldSpec hf
    have hvb := UInt64.le_iff_toNat_le.mp (hw.ordered _ hf).2.1
    have hboundary : (c.fold n (UInt64.ofNat ((c.folds n).toNat - 1))).boundary.toNat = c.lastStart n := by
      rw [hs.boundary_eq, hof, lastStart]
    rw [hs.vb_eq, hboundary] at hvb
    have hemb := c.embargoEvents.toNat_lt
    by_contra hover
    -- wrapped around, the window starts before the boundary
    have hmod : (c.lastStart n + c.embargoEvents.toNat) % 2 ^ 64 < c.lastStart n := by omega
    omega
  · intro he
    refine ⟨fun f hf => ⟨hte f hf, b.boundary_le_vb he hf, b.vb_le_ve hf, b.ve_le hf, hend⟩,
      fun f hf i hi hlt => ?_, fun f hf g hg hne i hi hi' => ?_, fun f hf i hi => ?_, fun h0 i => ⟨?_, ?_⟩⟩
    · have hle := UInt64.le_trans (hte f hf) (UInt64.le_trans (b.boundary_le_vb he hf) hi.1)
      exact absurd hlt (UInt64.not_lt.mpr hle)
    · rcases UInt64.lt_or_lt_of_ne hne with hfg | hgf
      · have hle := UInt64.le_trans (b.ve_le_boundary hfg hg) (UInt64.le_trans (b.boundary_le_vb he hg) hi'.1)
        exact absurd hi.2 (UInt64.not_lt.mpr hle)
      · have hle := UInt64.le_trans (b.ve_le_boundary hgf hf) (UInt64.le_trans (b.boundary_le_vb he hf) hi.1)
        exact absurd hi'.2 (UInt64.not_lt.mpr hle)
    · exact UInt64.lt_of_lt_of_le hi.2 (b.ve_le hf)
    · rintro ⟨f, hf, hi⟩
      refine ⟨?_, UInt64.lt_of_lt_of_le hi.2 (b.ve_le hf)⟩
      have hstart : c.initialTrain n ≤ (c.fold n f).boundary := by
        rw [UInt64.le_iff_toNat_le, (b.foldSpec hf).boundary_eq]
        exact Nat.le_add_right _ _
      exact UInt64.le_trans hstart (UInt64.le_trans (b.boundary_le_vb he hf) hi.1)
    · rintro ⟨hlow, hhigh⟩
      obtain ⟨f, hf, hb, hv⟩ := b.exists_fold hlow hhigh
      refine ⟨f, hf, ?_, hv⟩
      have hvb : (c.fold n f).vb ≤ (c.fold n f).boundary := by
        have hlt := (c.fold n f).boundary.toNat_lt
        rw [UInt64.le_iff_toNat_le, (b.foldSpec hf).vb_eq, h0]
        simp only [UInt64.toNat_zero, Nat.add_zero]
        omega
      exact UInt64.le_trans hvb hb
/-! ## An embargo that wraps around -/

/-- The largest `std::size_t`. -/
def endlessEmbargo : ResearchConfig := { exampleResearch with embargoEvents := 18446744073709551615 }

/-- The validation of the first fold starts one event before the boundary. -/
theorem endlessEmbargo_not_apart :
    loadResearchConfig (exampleDocument 18446744073709551615) = .ok endlessEmbargo ∧
      ¬ WindowsApart endlessEmbargo 100 := by
  refine ⟨by decide +kernel, fun h => ?_⟩
  have hvb := (h.ordered 0 (by decide +kernel)).2.1
  exact absurd hvb (by decide +kernel)

theorem exampleResearch_apart : WindowsApart exampleResearch 100 := by
  rw [windowsApart_iff exampleResearch_loaded (by decide)]
  decide +kernel

end ResearchConfig

end Sentum.Research
