import Mathlib.Data.Prod.Lex
import Sentum.Lib.OrderStatistics
import Sentum.Research.ResearchPlatform

/-!
# Stability scores

What `calculateStability` writes to a trial depends on which trials there are,
and not on their order or on what they are numbered: the bounds of the
parameters are folds that may start anywhere (`bound_perm`), and neighbours that
tie are equal pairs, so the five nearest are the same (`stability_perm`).
-/

namespace Sentum.Research

open OrderStatistics

/-! ## The bounds -/

section Bounds

variable {f : ℚ → ℚ → ℚ} {g : Nat → Nat → Nat}

instance [Std.Associative f] [Std.Associative g] : Std.Associative (ParameterSet.zipWith f g) :=
  ⟨fun a b c => by simp only [ParameterSet.zipWith, Std.Associative.assoc]⟩

instance [Std.Commutative f] [Std.Commutative g] : Std.Commutative (ParameterSet.zipWith f g) :=
  ⟨fun a b => by
    unfold ParameterSet.zipWith
    simp only [Std.Commutative.comm a.lookback, Std.Commutative.comm a.entryThreshold,
      Std.Commutative.comm a.stopLossPercent, Std.Commutative.comm a.takeProfitPercent,
      Std.Commutative.comm a.slippagePercent]⟩

instance [Std.IdempotentOp f] [Std.IdempotentOp g] : Std.IdempotentOp (ParameterSet.zipWith f g) :=
  ⟨fun a => by simp only [ParameterSet.zipWith, Std.IdempotentOp.idempotent]⟩

end Bounds

/-- The loop over the parameters, from those of `front` on. -/
def bound (op : ParameterSet → ParameterSet → ParameterSet) (results : List TrialResult) (front : TrialResult) :
    ParameterSet :=
  results.foldl (fun p r => op p r.parameters) front.parameters

/-- The trial with its score. -/
def scored (results : List TrialResult) (front r : TrialResult) : TrialResult :=
  { r with
    parameterStabilityScore :=
      stability results (bound (.zipWith min min) results front) (bound (.zipWith max max) results front) r }

variable {results results' : List TrialResult} {front front' r : TrialResult} {lo hi : ParameterSet}

theorem bound_eq_foldl (op : ParameterSet → ParameterSet → ParameterSet) (results : List TrialResult)
    (front : TrialResult) : bound op results front = (results.map (·.parameters)).foldl op front.parameters :=
  List.foldl_map.symm

theorem bound_perm {op : ParameterSet → ParameterSet → ParameterSet} [Std.Associative op] [Std.Commutative op]
    [Std.IdempotentOp op] (h : results'.Perm results) (hfront' : front' ∈ results) (hfront : front ∈ results) :
    bound op results' front' = bound op results front := by
  rw [bound_eq_foldl, bound_eq_foldl]
  exact foldl_perm (h.map _) (List.mem_map_of_mem hfront') (List.mem_map_of_mem hfront)

/-! ## The neighbours -/

theorem pairLe_iff (a b : ℚ × ℚ) : pairLe a b ↔ toLex a ≤ toLex b := Prod.Lex.toLex_le_toLex.symm

instance : Std.Total pairLe := ⟨fun a b => by
  rw [pairLe_iff, pairLe_iff]
  exact le_total _ _⟩

instance : IsTrans (ℚ × ℚ) pairLe := ⟨fun a b c hab hbc => by
  rw [pairLe_iff] at hab hbc ⊢
  exact hab.trans hbc⟩

/-- Pairs that tie are equal. -/
instance : Std.Antisymm pairLe := ⟨fun a b hab hba => by
  rw [pairLe_iff] at hab hba
  exact toLex_inj.mp (hab.antisymm hba)⟩

theorem stability_perm (h : results'.Perm results) : stability results' lo hi r = stability results lo hi r := by
  unfold stability
  simp only [insertionSort_perm ((h.filter _).map _)]

theorem scored_perm (h : results'.Perm results) (hfront' : front' ∈ results) (hfront : front ∈ results) :
    scored results' front' r = scored results front r := by
  unfold scored
  rw [bound_perm h hfront' hfront, bound_perm h hfront' hfront, stability_perm h]

/-- The loop over the trials scores each of them by itself. -/
theorem calculateStability_eq (hfront : front ∈ results) :
    calculateStability results = results.map (scored results front) := by
  match results, hfront with
  | first :: rest, hfront =>
    have hfirst : calculateStability (first :: rest) = (first :: rest).map (scored (first :: rest) first) := rfl
    rw [hfirst]
    exact List.map_congr_left fun r _ => scored_perm (.refl _) List.mem_cons_self hfront

/-! ## The numbers of the trials -/

/-- The trial under another number. -/
def renumber (f : Nat → Nat) (r : TrialResult) : TrialResult := { r with trialId := f r.trialId }

/-- Trials with different numbers keep different ones. -/
def TellsApart (f : Nat → Nat) (results : List TrialResult) : Prop :=
  ∀ a ∈ results, ∀ b ∈ results, f a.trialId = f b.trialId → a.trialId = b.trialId

instance (f : Nat → Nat) (results : List TrialResult) : Decidable (TellsApart f results) :=
  inferInstanceAs (Decidable (∀ a ∈ results, ∀ b ∈ results, f a.trialId = f b.trialId → a.trialId = b.trialId))

theorem bound_renumber (op : ParameterSet → ParameterSet → ParameterSet) (f : Nat → Nat)
    (results : List TrialResult) (front : TrialResult) :
    bound op (results.map (renumber f)) (renumber f front) = bound op results front :=
  List.foldl_map

theorem stability_renumber {f : Nat → Nat} (hf : TellsApart f results) (hr : r ∈ results) :
    stability (results.map (renumber f)) lo hi (renumber f r) = stability results lo hi r := by
  have hothers : (results.map (renumber f)).filter (fun o => decide (o.trialId ≠ (renumber f r).trialId)) =
      (results.filter fun o => decide (o.trialId ≠ r.trialId)).map (renumber f) := by
    rw [List.filter_map]
    congr 1
    refine List.filter_congr fun o ho => ?_
    have hsame : f o.trialId = f r.trialId ↔ o.trialId = r.trialId := ⟨hf o ho r hr, congrArg f⟩
    exact decide_eq_decide.mpr (not_congr hsame)
  unfold stability
  rw [hothers, List.map_map]
  rfl

theorem scored_renumber {f : Nat → Nat} (hf : TellsApart f results) (hr : r ∈ results) :
    scored (results.map (renumber f)) (renumber f front) (renumber f r) = renumber f (scored results front r) := by
  unfold scored
  rw [bound_renumber, bound_renumber, stability_renumber hf hr]
  rfl

/-! ## The scores -/

theorem relative_nonneg (x y l h : ℚ) : 0 ≤ relative x y l h := by
  unfold relative
  split
  · next hlh => exact div_nonneg (abs_nonneg _) (sub_nonneg.mpr hlh.le)
  · exact le_rfl

theorem distance_nonneg (a b lo hi : ParameterSet) : 0 ≤ distance a b lo hi := by
  have hsum := add_nonneg (add_nonneg (add_nonneg (add_nonneg
    (relative_nonneg a.lookback b.lookback lo.lookback hi.lookback)
    (relative_nonneg a.entryThreshold b.entryThreshold lo.entryThreshold hi.entryThreshold))
    (relative_nonneg a.stopLossPercent b.stopLossPercent lo.stopLossPercent hi.stopLossPercent))
    (relative_nonneg a.takeProfitPercent b.takeProfitPercent lo.takeProfitPercent hi.takeProfitPercent))
    (relative_nonneg a.slippagePercent b.slippagePercent lo.slippagePercent hi.slippagePercent)
  exact hsum

theorem stability_mem (results : List TrialResult) (lo hi : ParameterSet) (r : TrialResult) :
    0 < stability results lo hi r ∧ stability results lo hi r ≤ 1 := by
  unfold stability
  extract_lets neighbors nearest wd w
  have hneighbors : ∀ n ∈ nearest, 0 ≤ n.1 ∧ 0 ≤ n.2 := by
    intro n hn
    have hmem : n ∈ neighbors := (List.perm_insertionSort pairLe neighbors).subset (List.mem_of_mem_take hn)
    obtain ⟨o, -, rfl⟩ := List.mem_map.mp hmem
    exact ⟨distance_nonneg .., abs_nonneg _⟩
  have hwd : 0 ≤ wd := by
    refine List.sum_nonneg fun x hx => ?_
    obtain ⟨n, hn, rfl⟩ := List.mem_map.mp hx
    have hweight : 0 ≤ 5 / 100 + n.1 := add_nonneg (by norm_num) (hneighbors n hn).1
    exact mul_nonneg (one_div_nonneg.mpr hweight) (hneighbors n hn).2
  have hmean : 0 ≤ wd / max (1 / 10 ^ 12) w := div_nonneg hwd (le_max_of_le_left (by norm_num))
  split
  · exact ⟨zero_lt_one, le_rfl⟩
  · have hpos : 0 < 1 + wd / max (1 / 10 ^ 12) w := by linarith
    exact ⟨one_div_pos.mpr hpos, (div_le_one hpos).mpr (by linarith)⟩

/-- **Main result: the scores are order-free.**  Each trial has one score, from
0 to 1 without 0; it has it in any order of the list, and under any numbers that
tell the same trials apart.  The numbers may even repeat. -/
theorem stability_order_free (results : List TrialResult) :
    ∃ scoreOf : TrialResult → ℚ, (∀ r ∈ results, 0 < scoreOf r ∧ scoreOf r ≤ 1) ∧
      calculateStability results = results.map (fun r => { r with parameterStabilityScore := scoreOf r }) ∧
      ∀ (permuted : List TrialResult) (f : Nat → Nat), permuted.Perm results → TellsApart f results →
        calculateStability (permuted.map (renumber f)) =
          permuted.map fun r => { renumber f r with parameterStabilityScore := scoreOf r } := by
  cases results with
  | nil =>
    refine ⟨fun _ => 1, fun r hr => absurd hr List.not_mem_nil, rfl, ?_⟩
    intro permuted f hperm _
    rw [hperm.eq_nil]
    rfl
  | cons front rest =>
    have hfront : front ∈ front :: rest := List.mem_cons_self
    refine ⟨fun r => (scored (front :: rest) front r).parameterStabilityScore,
      fun r _ => stability_mem _ _ _ r, calculateStability_eq hfront, ?_⟩
    intro permuted f hperm hf
    have hf' : TellsApart f permuted := fun a ha b hb => hf a (hperm.subset ha) b (hperm.subset hb)
    have hfront' : front ∈ permuted := hperm.symm.subset hfront
    rw [calculateStability_eq (List.mem_map_of_mem hfront'), List.map_map]
    refine List.map_congr_left fun r hr => ?_
    calc scored (permuted.map (renumber f)) (renumber f front) (renumber f r)
      _ = renumber f (scored permuted front r) := scored_renumber hf' hr
      _ = renumber f (scored (front :: rest) front r) := by rw [scored_perm hperm hfront hfront]
      _ = _ := rfl

/-- Three trials in the reverse order and with other numbers; the second and
the third are equally far from the first. -/
theorem stability_order_free_three :
    let results : List TrialResult :=
      [{ trialId := 1, parameters := { lookback := 20 } },
        { trialId := 2, parameters := { lookback := 10 }, validationScore := 3 },
        { trialId := 3, parameters := { lookback := 30 }, validationScore := 1 }]
    calculateStability (results.reverse.map (renumber (10 - ·))) =
      (calculateStability results).reverse.map (renumber (10 - ·)) := by
  intro results
  obtain ⟨scoreOf, -, hscore, horder⟩ := stability_order_free results
  rw [horder results.reverse (10 - ·) (List.reverse_perm results) (by decide), hscore, ← List.map_reverse,
    List.map_map]
  rfl

end Sentum.Research
