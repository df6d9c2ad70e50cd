import Mathlib.Data.List.FinRange
import Mathlib.Data.List.ProdSigma
import Sentum.Research.TrialPool

/-!
# The trial count

`checked_trial_count` in 64 bits.  Every dimension is divided into `max_trials`
before it is multiplied, so no product the loop forms wraps around, and the
count is that of unbounded numbers (`SizeT.checkedTrialCount_toNat`).  It is the
number of places in the grid, and the parameter list has the parameters of one
place after the other (`parameterSets_eq`).
-/

namespace Sentum.Research

open Risk

/-! ## Algorithm -/

/-- The sizes of the grid. -/
def dimensions (c : ResearchConfig) : List Nat :=
  [c.lookbacks.length, c.entryThresholds.length, c.stopLosses.length, c.takeProfits.length, c.slippages.length]

namespace SizeT

/-- One more dimension, in `std::size_t`. -/
def countDimension (maxTrials count dimension : UInt64) : Except String UInt64 :=
  if dimension = 0 then .error "Research parameter grid cannot be empty"
  else if maxTrials / dimension < count then .error "Research grid exceeds max_trials"
  else .ok (count * dimension)

def checkedTrialCount (c : ResearchConfig) : Except String UInt64 :=
  if UInt64.ofNat c.maxTrials = 0 then .error "max_trials must be >= 1"
  else ((dimensions c).map UInt64.ofNat).foldlM (countDimension (UInt64.ofNat c.maxTrials)) 1

/-- What the loop multiplies on its way, also when it ends with an exception:
the products as they are before they are cut to 64 bits. -/
def products (maxTrials : UInt64) : UInt64 → List UInt64 → List Nat
  | _, [] => []
  | count, dimension :: rest =>
    match countDimension maxTrials count dimension with
    | .error _ => []
    | .ok next => count.toNat * dimension.toNat :: products maxTrials next rest

end SizeT

/-- A place in the grid. -/
abbrev GridPosition (c : ResearchConfig) : Type :=
  Fin c.lookbacks.length × Fin c.entryThresholds.length × Fin c.stopLosses.length ×
    Fin c.takeProfits.length × Fin c.slippages.length

/-- The nested loops over the grid. -/
def gridPositions (c : ResearchConfig) : List (GridPosition c) :=
  List.finRange c.lookbacks.length ×ˢ List.finRange c.entryThresholds.length ×ˢ
    List.finRange c.stopLosses.length ×ˢ List.finRange c.takeProfits.length ×ˢ List.finRange c.slippages.length

def parametersAt (c : ResearchConfig) : GridPosition c → ParameterSet
  | (l, e, s, t, sl) =>
    { lookback := c.lookbacks.get l, entryThreshold := c.entryThresholds.get e
      stopLossPercent := c.stopLosses.get s, takeProfitPercent := c.takeProfits.get t
      slippagePercent := c.slippages.get sl }

/-! ## The guard -/

/-- The loop comes to its end if and only if the whole product is within the bound. -/
theorem foldlM_countDimension_iff {maxTrials : Nat} (dims : List Nat) {count total : Nat} (h : count ≤ maxTrials) :
    dims.foldlM (countDimension maxTrials) count = .ok total ↔
      (∀ d ∈ dims, d ≠ 0) ∧ count * dims.prod ≤ maxTrials ∧ total = count * dims.prod := by
  induction dims generalizing count with
  | nil =>
    rw [List.foldlM_nil, List.prod_nil, Nat.mul_one]
    refine ⟨fun hok => ⟨fun d hd => absurd hd List.not_mem_nil, h, (Except.ok.inj hok).symm⟩, ?_⟩
    rintro ⟨-, -, rfl⟩
    rfl
  | cons d dims ih =>
    rw [List.foldlM_cons, List.forall_mem_cons, List.prod_cons, ← Nat.mul_assoc]
    constructor
    · intro hok
      obtain ⟨next, hnext, hok⟩ := bind_eq_ok hok
      obtain ⟨hd, hle, rfl⟩ := countDimension_eq_ok.mp hnext
      obtain ⟨hrest, hprod, htotal⟩ := (ih hle).mp hok
      exact ⟨⟨hd, hrest⟩, hprod, htotal⟩
    · rintro ⟨⟨hd, hrest⟩, hprod, htotal⟩
      have hpos : 1 ≤ dims.prod := List.one_le_prod_of_one_le fun k hk => Nat.one_le_iff_ne_zero.mpr (hrest k hk)
      have hle : count * d ≤ maxTrials := (Nat.le_mul_of_pos_right _ hpos).trans hprod
      rw [countDimension_eq_ok.mpr ⟨hd, hle, rfl⟩]
      exact (ih hle).mpr ⟨hrest, hprod, htotal⟩

theorem checkedTrialCount_iff {c : ResearchConfig} (hmax : 1 ≤ c.maxTrials) {trialCount : Nat} :
    checkedTrialCount c = .ok trialCount ↔
      (∀ d ∈ dimensions c, d ≠ 0) ∧ (dimensions c).prod ≤ c.maxTrials ∧ trialCount = (dimensions c).prod := by
  unfold checkedTrialCount
  rw [if_neg (Nat.ne_of_gt hmax), ← dimensions, foldlM_countDimension_iff _ hmax, Nat.one_mul]

/-! ## Sixty-four bits -/

namespace SizeT

/-- A product that passes the guard is not cut. -/
theorem toNat_mul_of_guard {maxTrials count dimension : UInt64} (hne : dimension ≠ 0)
    (hguard : ¬ maxTrials / dimension < count) :
    count.toNat * dimension.toNat ≤ maxTrials.toNat ∧
      (count * dimension).toNat = count.toNat * dimension.toNat := by
  have hpos : 0 < dimension.toNat := Nat.pos_of_ne_zero fun h => hne (UInt64.toNat_inj.mp h)
  rw [UInt64.lt_iff_toNat_lt, UInt64.toNat_div, not_lt, Nat.le_div_iff_mul_le hpos] at hguard
  refine ⟨hguard, ?_⟩
  rw [UInt64.toNat_mul, Nat.mod_eq_of_lt (hguard.trans_lt maxTrials.toNat_lt)]

theorem countDimension_toNat (maxTrials count dimension : UInt64) :
    (countDimension maxTrials count dimension).map UInt64.toNat =
      Research.countDimension maxTrials.toNat count.toNat dimension.toNat := by
  have hzero : dimension = 0 ↔ dimension.toNat = 0 := UInt64.toNat_inj.symm
  have hlt : maxTrials / dimension < count ↔ maxTrials.toNat / dimension.toNat < count.toNat := by
    rw [UInt64.lt_iff_toNat_lt, UInt64.toNat_div]
  unfold countDimension Research.countDimension
  rw [← if_congr hzero rfl rfl, ← if_congr hlt rfl rfl]
  split
  · rfl
  · next hne =>
    split
    · rfl
    · next hguard => exact congrArg Except.ok (toNat_mul_of_guard hne hguard).2

theorem foldlM_toNat (maxTrials count : UInt64) (dims : List UInt64) :
    (dims.foldlM (countDimension maxTrials) count).map UInt64.toNat =
      (dims.map UInt64.toNat).foldlM (Research.countDimension maxTrials.toNat) count.toNat := by
  induction dims generalizing count with
  | nil => rfl
  | cons d dims ih =>
    rw [List.map_cons, List.foldlM_cons, List.foldlM_cons, ← countDimension_toNat]
    cases countDimension maxTrials count d with
    | error what => rfl
    | ok next => exact ih next

theorem products_le {maxTrials count : UInt64} {dims : List UInt64} {p : Nat}
    (h : p ∈ products maxTrials count dims) : p ≤ maxTrials.toNat := by
  induction dims generalizing count with
  | nil => cases h
  | cons d dims ih =>
    unfold products countDimension at h
    split_ifs at h with hzero hguard
    · cases h
    · cases h
    · rcases List.mem_cons.mp h with rfl | h
      · exact (toNat_mul_of_guard hzero hguard).1
      · exact ih h

/-- **Nothing is cut**: the count in 64 bits is the count. -/
theorem checkedTrialCount_toNat {c : ResearchConfig} (hmax : c.maxTrials < 2 ^ 64)
    (hdims : ∀ d ∈ dimensions c, d < 2 ^ 64) :
    (checkedTrialCount c).map UInt64.toNat = Research.checkedTrialCount c := by
  have hto : (UInt64.ofNat c.maxTrials).toNat = c.maxTrials := UInt64.toNat_ofNat_of_lt' hmax
  have hsizes : ((dimensions c).map UInt64.ofNat).map UInt64.toNat = dimensions c := by
    rw [List.map_map]
    exact (List.map_congr_left fun d hd => UInt64.toNat_ofNat_of_lt' (hdims d hd)).trans (List.map_id _)
  have hzero : UInt64.ofNat c.maxTrials = 0 ↔ c.maxTrials = 0 := by
    rw [← UInt64.toNat_inj, hto]
    rfl
  unfold checkedTrialCount Research.checkedTrialCount
  rw [if_congr hzero rfl rfl]
  split
  · rfl
  · rw [foldlM_toNat, hto, hsizes]
    rfl

end SizeT

/-! ## The grid -/

section Loops

variable {α β γ : Type}

theorem map_product (xs : List α) (ys : List β) (f : α × β → γ) :
    (xs ×ˢ ys).map f = xs.flatMap fun x => ys.map fun y => f (x, y) :=
  List.map_flatMap.trans (congrArg xs.flatMap (funext fun _ => List.map_map))

theorem flatMap_eq_finRange (l : List α) (f : α → List β) :
    l.flatMap f = (List.finRange l.length).flatMap fun i => f (l.get i) := by
  conv_lhs => rw [← List.map_get_finRange l, List.flatMap_map]

theorem map_eq_finRange (l : List α) (f : α → β) :
    l.map f = (List.finRange l.length).map fun i => f (l.get i) := by
  conv_lhs => rw [← List.map_get_finRange l, List.map_map]
  rfl

end Loops

/-- **The parameter list** goes through the grid place by place. -/
theorem parameterSets_eq (c : ResearchConfig) : parameterSets c = (gridPositions c).map (parametersAt c) := by
  unfold parameterSets gridPositions
  simp only [map_product, flatMap_eq_finRange c.lookbacks, flatMap_eq_finRange c.entryThresholds,
    flatMap_eq_finRange c.stopLosses, flatMap_eq_finRange c.takeProfits, map_eq_finRange c.slippages, parametersAt]

theorem mem_gridPositions (c : ResearchConfig) (p : GridPosition c) : p ∈ gridPositions c := by
  obtain ⟨l, e, s, t, sl⟩ := p
  unfold gridPositions
  simp only [List.mem_product, List.mem_finRange, and_self]

theorem nodup_gridPositions (c : ResearchConfig) : (gridPositions c).Nodup :=
  (List.nodup_finRange _).product <| (List.nodup_finRange _).product <| (List.nodup_finRange _).product <|
    (List.nodup_finRange _).product (List.nodup_finRange _)

theorem length_gridPositions (c : ResearchConfig) : (gridPositions c).length = (dimensions c).prod := by
  unfold gridPositions dimensions
  simp only [List.length_product, List.length_finRange, List.prod_cons, List.prod_nil, Nat.mul_one]

/-- **Main result: the trials are counted right.**  In 64 bits the count comes
out if and only if no dimension is empty and their product is at most
`max_trials`; no product on the way is too large for 64 bits; and it is the
number of places in the grid, each of which has its parameters in the list. -/
theorem trial_count_exact (c : ResearchConfig) (hpos : 1 ≤ c.maxTrials) (hmax : c.maxTrials < 2 ^ 64)
    (hdims : ∀ d ∈ dimensions c, d < 2 ^ 64) :
    ((∃ count, SizeT.checkedTrialCount c = .ok count) ↔
      (∀ d ∈ dimensions c, d ≠ 0) ∧ (dimensions c).prod ≤ c.maxTrials) ∧
    (∀ p ∈ SizeT.products (UInt64.ofNat c.maxTrials) 1 ((dimensions c).map UInt64.ofNat), p ≤ 2 ^ 64 - 1) ∧
    ∀ count, SizeT.checkedTrialCount c = .ok count →
      count.toNat = (gridPositions c).length ∧ (gridPositions c).Nodup ∧ (∀ p, p ∈ gridPositions c) ∧
        parameterSets c = (gridPositions c).map (parametersAt c) := by
  have hsame := SizeT.checkedTrialCount_toNat hmax hdims
  have hcount : ∀ count, SizeT.checkedTrialCount c = .ok count → checkedTrialCount c = .ok count.toNat := by
    intro count hok
    rw [← hsame, hok]
    rfl
  refine ⟨⟨?_, ?_⟩, ?_, ?_⟩
  · rintro ⟨count, hok⟩
    obtain ⟨hne, hprod, -⟩ := (checkedTrialCount_iff hpos).mp (hcount count hok)
    exact ⟨hne, hprod⟩
  · rintro ⟨hne, hprod⟩
    have hok := (checkedTrialCount_iff hpos).mpr ⟨hne, hprod, rfl⟩
    rw [← hsame] at hok
    cases hsize : SizeT.checkedTrialCount c with
    | error what =>
      rw [hsize] at hok
      cases hok
    | ok count => exact ⟨count, rfl⟩
  · intro p hp
    have hle := SizeT.products_le hp
    have hlt := (UInt64.ofNat c.maxTrials).toNat_lt
    omega
  · intro count hok
    have htotal := ((checkedTrialCount_iff hpos).mp (hcount count hok)).2.2
    exact ⟨htotal.trans (length_gridPositions c).symm, nodup_gridPositions c, mem_gridPositions c,
      parameterSets_eq c⟩

/-- The default grid with the base risk, and no room for another trial. -/
theorem trial_count_exact_default :
    let c : ResearchConfig := { maxTrials := 9, stopLosses := [2], takeProfits := [4], slippages := [0] }
    ∃ count, SizeT.checkedTrialCount c = .ok count ∧ count.toNat = (gridPositions c).length := by
  intro c
  obtain ⟨hiff, -, hcount⟩ := trial_count_exact c (by decide) (by decide) (by decide)
  obtain ⟨count, hok⟩ := hiff.mpr ⟨by decide, by decide⟩
  exact ⟨count, hok, (hcount count hok).1⟩

end Sentum.Research
