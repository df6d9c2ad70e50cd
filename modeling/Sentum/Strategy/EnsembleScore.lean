import Mathlib.Algebra.BigOperators.Group.List.Basic
import Mathlib.Algebra.Order.BigOperators.Group.List
import Mathlib.Algebra.Order.Field.Rat
import Mathlib.Tactic.FieldSimp
import Mathlib.Tactic.Linarith
import Sentum.Strategy.StrategyFramework

/-!
# The score of an ensemble

An ensemble buys when the weighted mean of its members' confidences reaches its
threshold.  A BUY with confidence 0 counts as one with confidence 1, so a member
that becomes a little more confident can lower the score: more confirmation
never lowers it, whatever the weights, exactly if no member goes from 0 to a
confidence between 0 and 1 (`score_mono_iff`).
-/

namespace Sentum.Strategy

open Sentum Market

/-! ## The score -/

/-- The votes of members with these signals and weights. -/
def Votes.of (members : List (StrategySignal × ℚ)) : Votes := members.foldl (fun v m => v.add m.1 m.2) {}

/-- What is compared with the threshold. -/
def Votes.score (v : Votes) : ℚ := if 0 < v.total then v.weighted / v.total else 0

/-- The score of these signals under these weights. -/
def aggregate (signals : List StrategySignal) (weights : List ℚ) : ℚ := (Votes.of (signals.zip weights)).score

/-- What a signal adds for each unit of weight. -/
def counted (s : StrategySignal) : ℚ :=
  if s.action = .buy then if 0 < s.confidence then s.confidence else 1 else 0

def weightedSum (members : List (StrategySignal × ℚ)) : ℚ := (members.map fun m => m.2 * counted m.1).sum

theorem Votes.add_eq (v : Votes) (s : StrategySignal) (weight : ℚ) :
    (v.add s weight).weighted = v.weighted + weight * counted s ∧ (v.add s weight).total = v.total + weight := by
  unfold add counted
  dsimp only
  by_cases hbuy : s.action = .buy
  · rw [if_pos hbuy, if_pos hbuy]
    exact ⟨rfl, rfl⟩
  · rw [if_neg hbuy, if_neg hbuy, mul_zero, add_zero]
    exact ⟨rfl, rfl⟩

/-- **Run lemma.** -/
theorem Votes.foldl_add (members : List (StrategySignal × ℚ)) (v : Votes) :
    (members.foldl (fun v m => v.add m.1 m.2) v).weighted = v.weighted + weightedSum members ∧
      (members.foldl (fun v m => v.add m.1 m.2) v).total = v.total + (members.map Prod.snd).sum := by
  induction members generalizing v with
  | nil => exact ⟨(add_zero _).symm, (add_zero _).symm⟩
  | cons m members ih =>
    obtain ⟨hweighted, htotal⟩ := ih (v.add m.1 m.2)
    obtain ⟨hadd, hadd'⟩ := v.add_eq m.1 m.2
    rw [List.foldl_cons, hweighted, htotal, hadd, hadd', weightedSum, weightedSum, List.map_cons, List.map_cons,
      List.sum_cons, List.sum_cons, add_assoc, add_assoc]
    exact ⟨rfl, rfl⟩

theorem Votes.of_eq (members : List (StrategySignal × ℚ)) :
    (Votes.of members).weighted = weightedSum members ∧ (Votes.of members).total = (members.map Prod.snd).sum := by
  obtain ⟨hweighted, htotal⟩ := Votes.foldl_add members {}
  exact ⟨hweighted.trans (zero_add _), htotal.trans (zero_add _)⟩

/-- An ensemble buys when the score reaches the threshold. -/
theorem Votes.signal_buy_iff (v : Votes) (threshold : ℚ) (e : MarketEvent) :
    (v.signal threshold e).action = .buy ↔ threshold ≤ v.score := by
  show (if v.score < threshold then ({} : StrategySignal) else _).action = .buy ↔ _
  split
  · next hlt => exact iff_of_false nofun (not_le.mpr hlt)
  · next hge => exact iff_of_true rfl (not_lt.mp hge)

namespace IStrategy

/-- The members answer the event one by one. -/
theorem vote_snd (members : List (IStrategy × ℚ)) (e : MarketEvent) (v : Votes) :
    (vote members e v).2 = (members.map fun m => ((onEvent m.1 e).2, m.2)).foldl (fun v m => v.add m.1 m.2) v := by
  induction members generalizing v with
  | nil => rw [vote]; rfl
  | cons m members ih =>
    obtain ⟨s, weight⟩ := m
    rw [vote, List.map_cons, List.foldl_cons, ← ih]

theorem zip_signals (members : List (IStrategy × ℚ)) (e : MarketEvent) :
    (members.map fun m => (onEvent m.1 e).2).zip (members.map Prod.snd) =
      members.map fun m => ((onEvent m.1 e).2, m.2) := by
  induction members with
  | nil => rfl
  | cons m members ih => rw [List.map_cons, List.map_cons, List.zip_cons_cons, ih, List.map_cons]

/-- `EnsembleStrategy::on_event` buys exactly if the score of its members'
signals reaches the threshold. -/
theorem ensemble_buy_iff (threshold : ℚ) (members : List (IStrategy × ℚ)) (e : MarketEvent) :
    (onEvent (.ensemble threshold members) e).2.action = .buy ↔
      threshold ≤ aggregate (members.map fun m => (onEvent m.1 e).2) (members.map Prod.snd) := by
  have hvotes : (vote members e {}).2 = Votes.of (members.map fun m => ((onEvent m.1 e).2, m.2)) := vote_snd members e {}
  rw [onEvent, aggregate, zip_signals, ← hvotes]
  exact Votes.signal_buy_iff _ threshold e

end IStrategy

/-! ## More confirmation -/

/-- The second signal confirms at least what the first does. -/
structure Confirms (first second : StrategySignal) : Prop where
  first_mem : 0 ≤ first.confidence ∧ first.confidence ≤ 1
  second_mem : 0 ≤ second.confidence ∧ second.confidence ≤ 1
  stays : first.action = .buy → second.action = .buy
  rises : first.action = .buy → first.confidence ≤ second.confidence

instance (first second : StrategySignal) : Decidable (Confirms first second) :=
  decidable_of_iff
    ((0 ≤ first.confidence ∧ first.confidence ≤ 1) ∧ (0 ≤ second.confidence ∧ second.confidence ≤ 1) ∧
      (first.action = .buy → second.action = .buy) ∧ (first.action = .buy → first.confidence ≤ second.confidence))
    ⟨fun h => ⟨h.1, h.2.1, h.2.2.1, h.2.2.2⟩, fun h => ⟨h.first_mem, h.second_mem, h.stays, h.rises⟩⟩

theorem counted_mem {s : StrategySignal} (h : 0 ≤ s.confidence ∧ s.confidence ≤ 1) : 0 ≤ counted s ∧ counted s ≤ 1 := by
  unfold counted
  split
  · split
    · exact h
    · exact ⟨zero_le_one, le_refl 1⟩
  · exact ⟨le_refl 0, zero_le_one⟩

/-- A member counts for less only if it leaves confidence 0. -/
theorem Confirms.counted_le {first second : StrategySignal} (h : Confirms first second)
    (hzero : first.action = .buy → first.confidence = 0 → second.confidence = 0 ∨ second.confidence = 1) :
    counted first ≤ counted second := by
  by_cases hbuy : first.action = .buy
  · have hbuy' := h.stays hbuy
    have hrises := h.rises hbuy
    by_cases hpos : 0 < first.confidence
    · have hpos' : 0 < second.confidence := lt_of_lt_of_le hpos hrises
      rw [counted, counted, if_pos hbuy, if_pos hpos, if_pos hbuy', if_pos hpos']
      exact hrises
    · have hfirst : first.confidence = 0 := le_antisymm (not_lt.mp hpos) h.first_mem.1
      have hone : counted first = 1 := by
        rw [counted, if_pos hbuy, if_neg hpos]
      have hone' : counted second = 1 := by
        rw [counted, if_pos hbuy']
        rcases hzero hbuy hfirst with hsecond | hsecond <;> rw [hsecond]
        · exact if_neg (lt_irrefl 0)
        · exact if_pos zero_lt_one
      rw [hone, hone']
  · rw [counted, if_neg hbuy]
    exact (counted_mem h.second_mem).1

/-! ## Weighted sums -/

theorem weightedSum_le {members : List (StrategySignal × StrategySignal)}
    (h : ∀ m ∈ members, counted m.1 ≤ counted m.2) (weights : List ℚ) (hweights : ∀ w ∈ weights, 0 < w) :
    weightedSum ((members.map Prod.fst).zip weights) ≤ weightedSum ((members.map Prod.snd).zip weights) := by
  induction members generalizing weights with
  | nil => exact le_refl 0
  | cons m members ih =>
    cases weights with
    | nil => exact le_refl 0
    | cons w weights =>
      have hrest := ih (fun m' hm' => h m' (List.mem_cons_of_mem m hm')) weights
        fun w' hw' => hweights w' (List.mem_cons_of_mem w hw')
      have hfirst := mul_le_mul_of_nonneg_left (h m List.mem_cons_self) (hweights w List.mem_cons_self).le
      exact add_le_add hfirst hrest

/-- Members of weight 1. -/
theorem weightedSum_ones {signals : List StrategySignal} (h : ∀ s ∈ signals, 0 ≤ s.confidence ∧ s.confidence ≤ 1) :
    0 ≤ weightedSum (signals.zip (List.replicate signals.length 1)) ∧
      weightedSum (signals.zip (List.replicate signals.length 1)) ≤ signals.length := by
  induction signals with
  | nil => exact ⟨le_refl 0, le_refl 0⟩
  | cons s signals ih =>
    obtain ⟨hlo, hhi⟩ := ih fun s' hs' => h s' (List.mem_cons_of_mem s hs')
    obtain ⟨hlo', hhi'⟩ := counted_mem (h s List.mem_cons_self)
    have hcons : weightedSum ((s :: signals).zip (List.replicate (s :: signals).length 1)) =
        1 * counted s + weightedSum (signals.zip (List.replicate signals.length 1)) := rfl
    rw [hcons, List.length_cons]
    push_cast
    constructor <;> linarith

theorem first_ones {members : List (StrategySignal × StrategySignal)} (h : ∀ m ∈ members, Confirms m.1 m.2) :
    0 ≤ weightedSum ((members.map Prod.fst).zip (List.replicate members.length 1)) := by
  have hones := (@weightedSum_ones (members.map Prod.fst) fun s hs => by
    obtain ⟨m, hm, rfl⟩ := List.mem_map.mp hs
    exact (h m hm).first_mem).1
  rwa [List.length_map] at hones

theorem second_ones {members : List (StrategySignal × StrategySignal)} (h : ∀ m ∈ members, Confirms m.1 m.2) :
    weightedSum ((members.map Prod.snd).zip (List.replicate members.length 1)) ≤ members.length := by
  have hones := (@weightedSum_ones (members.map Prod.snd) fun s hs => by
    obtain ⟨m, hm, rfl⟩ := List.mem_map.mp hs
    exact (h m hm).second_mem).2
  rwa [List.length_map] at hones

/-- One member of weight `w`, the others of weight 1. -/
def outweighing (before later : Nat) (w : ℚ) : List ℚ := List.replicate before 1 ++ w :: List.replicate later 1

theorem weightedSum_outweighing (xs ys : List StrategySignal) (s : StrategySignal) (w : ℚ) :
    weightedSum ((xs ++ s :: ys).zip (outweighing xs.length ys.length w)) =
      weightedSum (xs.zip (List.replicate xs.length 1)) +
        (w * counted s + weightedSum (ys.zip (List.replicate ys.length 1))) := by
  unfold outweighing weightedSum
  rw [List.zip_append (List.length_replicate).symm, List.map_append, List.sum_append]
  rfl

theorem aggregate_eq {signals : List StrategySignal} {weights : List ℚ} (hlen : weights.length = signals.length)
    (hweights : ∀ w ∈ weights, 0 < w) (hne : weights ≠ []) :
    0 < weights.sum ∧ aggregate signals weights = weightedSum (signals.zip weights) / weights.sum := by
  obtain ⟨hweighted, htotal⟩ := Votes.of_eq (signals.zip weights)
  have hpos : 0 < weights.sum := List.sum_pos weights hweights hne
  rw [List.map_snd_zip hlen.le] at htotal
  refine ⟨hpos, ?_⟩
  unfold aggregate Votes.score
  rw [htotal, hweighted, if_pos hpos]

theorem outweighing_pos {before later : Nat} {w : ℚ} (hw : 0 < w) : ∀ x ∈ outweighing before later w, 0 < x := by
  intro x hx
  rcases List.mem_append.mp hx with hx | hx
  · rw [List.eq_of_mem_replicate hx]
    exact zero_lt_one
  · rcases List.mem_cons.mp hx with rfl | hx
    · exact hw
    · rw [List.eq_of_mem_replicate hx]
      exact zero_lt_one

/-- The scores of two tuples have the order of their weighted sums. -/
theorem aggregate_le_iff {members : List (StrategySignal × StrategySignal)} {weights : List ℚ}
    (hlen : weights.length = members.length) (hweights : ∀ w ∈ weights, 0 < w) (hne : weights ≠ []) :
    aggregate (members.map Prod.fst) weights ≤ aggregate (members.map Prod.snd) weights ↔
      weightedSum ((members.map Prod.fst).zip weights) ≤ weightedSum ((members.map Prod.snd).zip weights) := by
  obtain ⟨hpos, hfirst⟩ := aggregate_eq (hlen.trans (List.length_map Prod.fst).symm) hweights hne
  obtain ⟨-, hsecond⟩ := aggregate_eq (hlen.trans (List.length_map Prod.snd).symm) hweights hne
  rw [hfirst, hsecond, div_le_div_iff_of_pos_right hpos]

/-- A member that leaves confidence 0 for one below 1 lowers the score, if its
weight outweighs what all others can gain. -/
theorem exists_lower {members : List (StrategySignal × StrategySignal)} (h : ∀ m ∈ members, Confirms m.1 m.2)
    {m : StrategySignal × StrategySignal} (hm : m ∈ members) (hbuy : m.1.action = .buy) (hzero : m.1.confidence = 0)
    (hpos : 0 < m.2.confidence) (hlt : m.2.confidence < 1) :
    ∃ weights : List ℚ, weights.length = members.length ∧ (∀ w ∈ weights, 0 < w) ∧
      ¬ aggregate (members.map Prod.fst) weights ≤ aggregate (members.map Prod.snd) weights := by
  have hconfirms := h m hm
  obtain ⟨before, later, rfl⟩ := List.append_of_mem hm
  let w : ℚ := (before.length + later.length + 1) / (1 - m.2.confidence)
  have hgap : 0 < 1 - m.2.confidence := sub_pos.mpr hlt
  have hw : 0 < w := div_pos (by positivity) hgap
  have hproduct : w * (1 - m.2.confidence) = before.length + later.length + 1 := div_mul_cancel₀ _ hgap.ne'
  have hlen : (outweighing before.length later.length w).length = (before ++ m :: later).length := by
    simp [outweighing]
  have hne : outweighing before.length later.length w ≠ [] :=
    List.append_ne_nil_of_right_ne_nil _ (List.cons_ne_nil _ _)
  refine ⟨outweighing before.length later.length w, hlen, outweighing_pos hw, ?_⟩
  rw [aggregate_le_iff hlen (outweighing_pos hw) hne]
  have hsplit : ∀ f : StrategySignal × StrategySignal → StrategySignal,
      weightedSum (((before ++ m :: later).map f).zip (outweighing before.length later.length w)) =
        weightedSum ((before.map f).zip (List.replicate before.length 1)) +
          (w * counted (f m) + weightedSum ((later.map f).zip (List.replicate later.length 1))) := by
    intro f
    have hsum := weightedSum_outweighing (before.map f) (later.map f) (f m) w
    rw [List.length_map, List.length_map] at hsum
    rw [List.map_append, List.map_cons]
    exact hsum
  have hone : counted m.1 = 1 := by
    rw [counted, if_pos hbuy, hzero]
    exact if_neg (lt_irrefl 0)
  have hconfidence : counted m.2 = m.2.confidence := by
    rw [counted, if_pos (hconfirms.stays hbuy), if_pos hpos]
  have hbefore : ∀ m' ∈ before, Confirms m'.1 m'.2 := fun m' hm' => h m' (List.mem_append_left _ hm')
  have hlater : ∀ m' ∈ later, Confirms m'.1 m'.2 := fun m' hm' =>
    h m' (List.mem_append_right _ (List.mem_cons_of_mem m hm'))
  have hlow := first_ones hbefore
  have hlow' := first_ones hlater
  have hhigh := second_ones hbefore
  have hhigh' := second_ones hlater
  intro hle
  rw [hsplit Prod.fst, hsplit Prod.snd, hone, hconfidence] at hle
  rw [mul_sub, mul_one] at hproduct
  linarith

/-- **Main result.**  More or stronger confirmation never lowers the score,
whatever the weights, if and only if no member goes from confidence 0 to one
strictly between 0 and 1. -/
theorem score_mono_iff {members : List (StrategySignal × StrategySignal)} (h : ∀ m ∈ members, Confirms m.1 m.2) :
    (∀ weights : List ℚ, weights.length = members.length → (∀ w ∈ weights, 0 < w) →
      aggregate (members.map Prod.fst) weights ≤ aggregate (members.map Prod.snd) weights) ↔
    ∀ m ∈ members, m.1.action = .buy → m.1.confidence = 0 → m.2.confidence = 0 ∨ m.2.confidence = 1 := by
  constructor
  · intro hmono m hm hbuy hzero
    by_contra hbetween
    rw [not_or] at hbetween
    have hmem := (h m hm).second_mem
    have hpos : 0 < m.2.confidence := lt_of_le_of_ne hmem.1 (Ne.symm hbetween.1)
    have hlt : m.2.confidence < 1 := lt_of_le_of_ne hmem.2 hbetween.2
    obtain ⟨weights, hlen, hweights, hlower⟩ := exists_lower h hm hbuy hzero hpos hlt
    exact hlower (hmono weights hlen hweights)
  · intro hzero weights hlen hweights
    by_cases hne : weights = []
    · rw [hne, aggregate, aggregate, List.zip_nil_right, List.zip_nil_right]
    · rw [aggregate_le_iff hlen hweights hne]
      exact weightedSum_le (fun m hm => (h m hm).counted_le (hzero m hm)) weights hweights

/-- An RSI of 30 and one below it: the signal of `mean_reversion` after a rise
by 3 and a fall to this price. -/
def dip (price : ℚ) : StrategySignal :=
  let prices : List ℚ := [100, 103]
  let start : MeanReversionStrategy := { period := 2, oversold := 30, rsi := .init 2 }
  let s := prices.foldl (fun (s : MeanReversionStrategy) price => (s.onPrice price 0).1) start
  (s.onPrice price 0).2

/-- The deeper dip has the higher confidence and the lower score. -/
theorem deeper_dip_scores_less :
    MeanReversionStrategy.init 2 30 = .ok { period := 2, oversold := 30, rsi := .init 2 } ∧
    Confirms (dip 96) (dip 95) ∧ (dip 96).confidence = 0 ∧ (dip 95).confidence = 1 / 11 ∧
    aggregate [dip 96] [1] = 1 ∧ aggregate [dip 95] [1] = 1 / 11 ∧
    ¬ aggregate [dip 96] [1] ≤ aggregate [dip 95] [1] := by
  constructor
  · exact if_neg (by decide +kernel)
  · decide +kernel

/-- Without such a member. -/
theorem score_mono_iff_dips :
    aggregate [dip 95] [1] ≤ aggregate [dip 94] [1] := by
  have hmembers : ∀ m ∈ [(dip 95, dip 94)], Confirms m.1 m.2 := by decide +kernel
  have hzero : ∀ m ∈ [(dip 95, dip 94)], m.1.action = .buy → m.1.confidence = 0 →
      m.2.confidence = 0 ∨ m.2.confidence = 1 := by decide +kernel
  exact (score_mono_iff hmembers).mpr hzero [1] rfl (by decide)

end Sentum.Strategy
