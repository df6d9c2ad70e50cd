import Sentum.Strategy.EnsembleScore
import Sentum.Strategy.Signals

/-!
# Entries of an ensemble

When an ensemble buys without a strategy under it that does.  The factory takes
every threshold.  One that is not positive is reached by the score 0, so the
ensemble buys on every event, and its vote counts in the ensembles around it.
-/

namespace Sentum.Strategy

open Sentum Market

namespace IStrategy

mutual

/-- The strategies under it that are no ensembles. -/
def leaves : IStrategy → List IStrategy
  | .ensemble _ members => leavesOf members
  | s => [s]

def leavesOf : List (IStrategy × ℚ) → List IStrategy
  | [] => []
  | (s, _) :: rest => leaves s ++ leavesOf rest

end

mutual

/-- The ensembles under it, with itself. -/
def ensembles : IStrategy → List IStrategy
  | .ensemble threshold members => .ensemble threshold members :: ensemblesOf members
  | _ => []

def ensemblesOf : List (IStrategy × ℚ) → List IStrategy
  | [] => []
  | (s, _) :: rest => ensembles s ++ ensemblesOf rest

end

mutual

def thresholds : IStrategy → List ℚ
  | .ensemble threshold members => threshold :: thresholdsOf members
  | _ => []

def thresholdsOf : List (IStrategy × ℚ) → List ℚ
  | [] => []
  | (s, _) :: rest => thresholds s ++ thresholdsOf rest

end

/-- What an entry of this confidence adds for each unit of weight. -/
def entryCount (confidence : Option ℚ) : ℚ := confidence.elim 0 fun c => if 0 < c then c else 1

mutual

/-- The confidence of the entry a strategy makes when none of its leaves buys:
by the thresholds and weights alone. -/
def unprompted : IStrategy → Option ℚ
  | .ensemble threshold members =>
    let score := Votes.score { weighted := unpromptedSum members, total := (members.map Prod.snd).sum }
    if score < threshold then none else some (clamp score 0 1)
  | _ => none

def unpromptedSum : List (IStrategy × ℚ) → ℚ
  | [] => 0
  | (s, weight) :: rest => weight * entryCount (unprompted s) + unpromptedSum rest

end

/-- The strategy buys on the event. -/
def Buys (s : IStrategy) (e : MarketEvent) : Prop := (onEvent s e).2.action = .buy

instance (s : IStrategy) (e : MarketEvent) : Decidable (s.Buys e) := inferInstanceAs (Decidable (_ = _))

/-- If it buys, one of its leaves does. -/
def Prompted (s : IStrategy) (e : MarketEvent) : Prop := s.Buys e → ∃ leaf ∈ leaves s, leaf.Buys e

/-! ## The tree -/

def IsLeaf : IStrategy → Prop
  | .ensemble _ _ => False
  | _ => True

mutual

/-- **Induction over the tree.** -/
theorem tree_induction {P : IStrategy → Prop} (leaf : ∀ s, IsLeaf s → P s)
    (ensemble : ∀ threshold members, (∀ m ∈ members, P m.1) → P (.ensemble threshold members)) : ∀ s, P s
  | .momentum s => leaf (.momentum s) trivial
  | .trend s => leaf (.trend s) trivial
  | .meanReversion s => leaf (.meanReversion s) trivial
  | .breakout s => leaf (.breakout s) trivial
  | .multiTimeframeTrend s => leaf (.multiTimeframeTrend s) trivial
  | .ensemble threshold members => ensemble threshold members (members_induction leaf ensemble members)

theorem members_induction {P : IStrategy → Prop} (leaf : ∀ s, IsLeaf s → P s)
    (ensemble : ∀ threshold members, (∀ m ∈ members, P m.1) → P (.ensemble threshold members)) :
    ∀ (members : List (IStrategy × ℚ)), ∀ m ∈ members, P m.1
  | [] => List.forall_mem_nil _
  | (s, _) :: rest =>
    List.forall_mem_cons.mpr ⟨tree_induction leaf ensemble s, members_induction leaf ensemble rest⟩

end

theorem leavesOf_eq (members : List (IStrategy × ℚ)) : leavesOf members = members.flatMap fun m => leaves m.1 := by
  induction members with
  | nil => rfl
  | cons m rest ih => rw [List.flatMap_cons, ← ih, leavesOf]

theorem ensemblesOf_eq (members : List (IStrategy × ℚ)) :
    ensemblesOf members = members.flatMap fun m => ensembles m.1 := by
  induction members with
  | nil => rfl
  | cons m rest ih => rw [List.flatMap_cons, ← ih, ensemblesOf]

theorem thresholdsOf_eq (members : List (IStrategy × ℚ)) :
    thresholdsOf members = members.flatMap fun m => thresholds m.1 := by
  induction members with
  | nil => rfl
  | cons m rest ih => rw [List.flatMap_cons, ← ih, thresholdsOf]

theorem unpromptedSum_eq (members : List (IStrategy × ℚ)) :
    unpromptedSum members = (members.map fun m => m.2 * entryCount (unprompted m.1)).sum := by
  induction members with
  | nil => rfl
  | cons m rest ih => rw [List.map_cons, List.sum_cons, ← ih, unpromptedSum]

theorem leaf_eq {s : IStrategy} (h : IsLeaf s) :
    leaves s = [s] ∧ ensembles s = [] ∧ thresholds s = [] ∧ unprompted s = none := by
  cases s with
  | ensemble threshold members => exact h.elim
  | momentum s => exact ⟨rfl, rfl, rfl, rfl⟩
  | trend s => exact ⟨rfl, rfl, rfl, rfl⟩
  | meanReversion s => exact ⟨rfl, rfl, rfl, rfl⟩
  | breakout s => exact ⟨rfl, rfl, rfl, rfl⟩
  | multiTimeframeTrend s => exact ⟨rfl, rfl, rfl, rfl⟩

theorem leaf_onEvent {s : IStrategy} (h : IsLeaf s) (e : MarketEvent) : IsLeaf (onEvent s e).1 := by
  cases s with
  | ensemble threshold members => exact h.elim
  | momentum s => trivial
  | trend s => trivial
  | meanReversion s => trivial
  | breakout s => trivial
  | multiTimeframeTrend s => trivial

/-! ## Events -/

theorem vote_fst (members : List (IStrategy × ℚ)) (e : MarketEvent) (v : Votes) :
    (vote members e v).1 = members.map fun m => ((onEvent m.1 e).1, m.2) := by
  induction members generalizing v with
  | nil => rw [vote]; rfl
  | cons m rest ih =>
    obtain ⟨s, weight⟩ := m
    rw [vote, List.map_cons, ← ih]

theorem onEvent_ensemble (threshold : ℚ) (members : List (IStrategy × ℚ)) (e : MarketEvent) :
    (onEvent (.ensemble threshold members) e).1 =
      .ensemble threshold (members.map fun m => ((onEvent m.1 e).1, m.2)) := by
  rw [onEvent, ← vote_fst members e {}]

/-- **Step lemma.**  An event changes neither the thresholds nor what they alone
bring about. -/
theorem onEvent_static (s : IStrategy) (e : MarketEvent) :
    thresholds (onEvent s e).1 = thresholds s ∧ unprompted (onEvent s e).1 = unprompted s := by
  induction s using tree_induction with
  | leaf s hleaf =>
    obtain ⟨-, -, hthresholds, hunprompted⟩ := leaf_eq hleaf
    obtain ⟨-, -, hthresholds', hunprompted'⟩ := leaf_eq (leaf_onEvent hleaf e)
    exact ⟨hthresholds'.trans hthresholds.symm, hunprompted'.trans hunprompted.symm⟩
  | ensemble threshold members ih =>
    rw [onEvent_ensemble, thresholds, thresholds, thresholdsOf_eq, thresholdsOf_eq, unprompted, unprompted,
      unpromptedSum_eq, unpromptedSum_eq, List.flatMap_map, List.map_map, List.map_map]
    constructor
    · exact congrArg (threshold :: ·) (List.flatMap_congr fun m hm => (ih m hm).1)
    · have hsum : (members.map ((fun m => m.2 * entryCount (unprompted m.1)) ∘ fun m => ((onEvent m.1 e).1, m.2))) =
          members.map fun m => m.2 * entryCount (unprompted m.1) :=
        List.map_congr_left fun m hm => congrArg (m.2 * entryCount ·) (ih m hm).2
      rw [hsum]
      rfl

/-- **Run lemma.** -/
theorem feed_static (s : IStrategy) (history : List MarketEvent) :
    thresholds (feed s history) = thresholds s ∧ unprompted (feed s history) = unprompted s := by
  induction history using List.reverseRecOn with
  | nil => exact ⟨rfl, rfl⟩
  | append_singleton history e ih =>
    obtain ⟨hthresholds, hunprompted⟩ := onEvent_static (feed s history) e
    rw [feed_concat]
    exact ⟨hthresholds.trans ih.1, hunprompted.trans ih.2⟩

/-! ## Without a leaf -/

/-- The confidence of a signal that buys. -/
def entry (signal : StrategySignal) : Option ℚ := if signal.action = .buy then some signal.confidence else none

theorem counted_eq (signal : StrategySignal) : counted signal = entryCount (entry signal) := by
  unfold counted entry
  split <;> rfl

theorem entry_ensemble (threshold : ℚ) (members : List (IStrategy × ℚ)) (e : MarketEvent) :
    entry (onEvent (.ensemble threshold members) e).2 =
      let score := Votes.score
        { weighted := (members.map fun m => m.2 * entryCount (entry (onEvent m.1 e).2)).sum
          total := (members.map Prod.snd).sum }
      if score < threshold then none else some (clamp score 0 1) := by
  have hvotes : (vote members e {}).2 = Votes.of (members.map fun m => ((onEvent m.1 e).2, m.2)) :=
    vote_snd members e {}
  obtain ⟨hweighted, htotal⟩ := Votes.of_eq (members.map fun m => ((onEvent m.1 e).2, m.2))
  rw [weightedSum, List.map_map] at hweighted
  rw [List.map_map] at htotal
  have hscore : (vote members e {}).2.score = Votes.score
      { weighted := (members.map fun m => m.2 * entryCount (entry (onEvent m.1 e).2)).sum
        total := (members.map Prod.snd).sum } := by
    rw [hvotes, Votes.score, Votes.score, hweighted, htotal]
    simp only [Function.comp_def, counted_eq]
  dsimp only
  rw [← hscore, onEvent]
  show entry (if (vote members e {}).2.score < threshold then {} else _) = _
  split <;> rfl

/-- Where no leaf buys, a strategy does what its thresholds and weights say. -/
theorem entry_unprompted (s : IStrategy) (e : MarketEvent) (h : ∀ leaf ∈ leaves s, ¬ leaf.Buys e) :
    entry (onEvent s e).2 = unprompted s := by
  induction s using tree_induction with
  | leaf s hleaf =>
    obtain ⟨hleaves, -, -, hunprompted⟩ := leaf_eq hleaf
    rw [hleaves] at h
    rw [hunprompted]
    exact if_neg (h s (List.mem_singleton_self s))
  | ensemble threshold members ih =>
    rw [leaves, leavesOf_eq] at h
    have hmembers : members.map (fun m => m.2 * entryCount (entry (onEvent m.1 e).2)) =
        members.map fun m => m.2 * entryCount (unprompted m.1) :=
      List.map_congr_left fun m hm => congrArg (m.2 * entryCount ·)
        (ih m hm fun leaf hleaf => h leaf (List.mem_flatMap.mpr ⟨m, hm, hleaf⟩))
    rw [entry_ensemble, unprompted, unpromptedSum_eq, hmembers]

theorem buys_iff (s : IStrategy) (e : MarketEvent) : s.Buys e ↔ entry (onEvent s e).2 ≠ none := by
  unfold Buys entry
  split
  · next hbuy => exact iff_of_true hbuy (Option.some_ne_none _)
  · next hbuy => exact iff_of_false hbuy fun hne => hne rfl

theorem prompted_of_none {s : IStrategy} (h : unprompted s = none) (e : MarketEvent) : Prompted s e := by
  intro hbuys
  by_contra hleaf
  have hquiet : ∀ leaf ∈ leaves s, ¬ leaf.Buys e := fun leaf hmem hbuys' => hleaf ⟨leaf, hmem, hbuys'⟩
  exact (buys_iff s e).mp hbuys ((entry_unprompted s e hquiet).trans h)

/-- And where no leaf buys, it is prompted only then. -/
theorem none_of_prompted {s : IStrategy} {e : MarketEvent} (hquiet : ∀ leaf ∈ leaves s, ¬ leaf.Buys e)
    (h : Prompted s e) : unprompted s = none := by
  rw [← entry_unprompted s e hquiet]
  by_contra hne
  obtain ⟨leaf, hmem, hbuys⟩ := h ((buys_iff s e).mpr hne)
  exact hquiet leaf hmem hbuys

/-! ## Positive thresholds -/

theorem unprompted_of_pos (s : IStrategy) (h : ∀ t ∈ thresholds s, 0 < t) :
    unprompted s = none ∧ ∀ n ∈ ensembles s, unprompted n = none := by
  induction s using tree_induction with
  | leaf s hleaf =>
    obtain ⟨-, hensembles, -, hunprompted⟩ := leaf_eq hleaf
    rw [hensembles]
    exact ⟨hunprompted, List.forall_mem_nil _⟩
  | ensemble threshold members ih =>
    rw [thresholds, thresholdsOf_eq] at h
    have hmembers := fun m hm => ih m hm fun t ht => h t (List.mem_cons_of_mem _ (List.mem_flatMap.mpr ⟨m, hm, ht⟩))
    have hself : unprompted (.ensemble threshold members) = none := by
      have hsum : members.map (fun m => m.2 * entryCount (unprompted m.1)) = members.map fun _ => (0 : ℚ) := by
        refine List.map_congr_left fun m hm => ?_
        rw [(hmembers m hm).1]
        exact mul_zero _
      have hscore : Votes.score { weighted := unpromptedSum members, total := (members.map Prod.snd).sum } = 0 := by
        rw [unpromptedSum_eq, hsum, List.map_const', List.sum_replicate, nsmul_zero]
        unfold Votes.score
        dsimp only
        rw [zero_div, ite_self]
      rw [unprompted, hscore]
      exact if_pos (h threshold List.mem_cons_self)
    refine ⟨hself, ?_⟩
    rw [ensembles, ensemblesOf_eq]
    refine List.forall_mem_cons.mpr ⟨hself, fun n hn => ?_⟩
    obtain ⟨m, hm, hn⟩ := List.mem_flatMap.mp hn
    exact (hmembers m hm).2 n hn

theorem leaves_ensembles (s : IStrategy) {n : IStrategy} (hn : n ∈ ensembles s) : ∀ leaf ∈ leaves n, leaf ∈ leaves s := by
  induction s using tree_induction with
  | leaf s hleaf =>
    rw [(leaf_eq hleaf).2.1] at hn
    cases hn
  | ensemble threshold members ih =>
    rw [ensembles, ensemblesOf_eq] at hn
    rcases List.mem_cons.mp hn with rfl | hn
    · exact fun leaf hleaf => hleaf
    · obtain ⟨m, hm, hn⟩ := List.mem_flatMap.mp hn
      intro leaf hleaf
      rw [leaves, leavesOf_eq]
      exact List.mem_flatMap.mpr ⟨m, hm, ih m hm hn leaf hleaf⟩

theorem entryCount_nonneg (confidence : Option ℚ) : 0 ≤ entryCount confidence := by
  cases confidence with
  | none => exact le_refl 0
  | some c =>
    show 0 ≤ if 0 < c then c else 1
    split
    · next hpos => exact hpos.le
    · exact zero_le_one

theorem score_nonneg {members : List (IStrategy × ℚ)} (h : ∀ m ∈ members, 0 < m.2) :
    0 ≤ Votes.score { weighted := unpromptedSum members, total := (members.map Prod.snd).sum } := by
  unfold Votes.score
  split
  · next hpos =>
    refine div_nonneg ?_ hpos.le
    show 0 ≤ unpromptedSum members
    rw [unpromptedSum_eq]
    refine List.sum_nonneg fun x hx => ?_
    obtain ⟨m, hm, rfl⟩ := List.mem_map.mp hx
    exact mul_nonneg (h m hm).le (entryCount_nonneg _)
  · exact le_refl 0

/-! ## A new strategy -/

/-- Nothing is prompted by the first event, and an ensemble that does not enter
unprompted has a positive threshold. -/
structure Fresh (s : IStrategy) : Prop where
  quiet : ∀ leaf ∈ leaves s, ∀ e, ¬ leaf.Buys e
  pos : (∀ n ∈ ensembles s, unprompted n = none) → ∀ t ∈ thresholds s, 0 < t

theorem leaf_fresh {s : IStrategy} (h : IsLeaf s) (hquiet : ∀ e, ¬ s.Buys e) : Fresh s := by
  obtain ⟨hleaves, -, hthresholds, -⟩ := leaf_eq h
  refine ⟨?_, fun _ => ?_⟩
  · rw [hleaves]
    exact List.forall_mem_singleton.mpr hquiet
  · rw [hthresholds]
    exact List.forall_mem_nil _

theorem momentum_quiet (lookback : Nat) (entryThreshold : ℚ) (e : MarketEvent) :
    ¬ Buys (.momentum (.init lookback entryThreshold)) e := by
  -- one value does not fill a buffer of two or more
  have hready : ((RollingReturn.init lookback).push e.tradedAt).ready = false := by
    refine decide_eq_false ?_
    simp only [RollingReturn.push, RollingReturn.init, List.length_set, List.length_replicate]
    split <;> omega
  unfold Buys
  rw [onEvent]
  unfold MomentumStrategy.onPrice MomentumStrategy.init
  simp [hready]

theorem trend_quiet {fast slow : Nat} {threshold : ℚ} {s : TrendStrategy}
    (h : TrendStrategy.init fast slow threshold = .ok s) (e : MarketEvent) : ¬ Buys (.trend s) e := by
  unfold TrendStrategy.init at h
  split at h
  · cases h
  · next hperiods =>
    cases h
    have hsamples : 0 + 1 < slow := by omega
    unfold Buys
    rw [onEvent]
    unfold TrendStrategy.onPrice
    simp [hsamples]

theorem meanReversion_quiet {period : Nat} {oversold : ℚ} {s : MeanReversionStrategy}
    (h : MeanReversionStrategy.init period oversold = .ok s) (e : MarketEvent) : ¬ Buys (.meanReversion s) e := by
  unfold MeanReversionStrategy.init at h
  split at h
  · cases h
  · cases h
    unfold Buys
    rw [onEvent]
    unfold MeanReversionStrategy.onPrice
    simp [Rsi.init, Rsi.push, Rsi.ready]

theorem breakout_quiet (lookback : Nat) (buffer : ℚ) (e : MarketEvent) : ¬ Buys (.breakout (.init lookback buffer)) e := by
  have hwindow : ([] : List ℚ).length < max 2 lookback := by
    rw [List.length_nil]
    omega
  unfold Buys
  rw [onEvent]
  unfold BreakoutStrategy.onPrice BreakoutStrategy.init
  rw [if_pos hwindow]
  intro h
  cases h

/-- No frame has closed. -/
theorem multiTimeframeTrend_quiet {fast slow : Int} {emaPeriod : Nat} {threshold : ℚ} {s : MultiTimeframeTrendStrategy}
    (h : MultiTimeframeTrendStrategy.init fast slow emaPeriod threshold = .ok s) (e : MarketEvent) :
    ¬ Buys (.multiTimeframeTrend s) e := by
  unfold MultiTimeframeTrendStrategy.init at h
  split at h
  · cases h
  · cases h
    have hclosed : ∀ seconds, ((TimeframeAggregator.init seconds).push e).2 = false := by
      intro seconds
      unfold TimeframeAggregator.push
      dsimp only
      split
      · rfl
      · show decide ((0 : Int) ≤ -1 ∧ (toSeconds e.timestamp).tdiv (max 1 seconds) ≠ -1) = false
        exact decide_eq_false fun hopen => absurd hopen.1 (by decide)
    unfold Buys
    rw [onEvent]
    unfold MultiTimeframeTrendStrategy.onEvent MultiTimeframeTrendStrategy.pushFast MultiTimeframeTrendStrategy.pushSlow
    simp [hclosed]

theorem createSingle_fresh {type : String} {p : Json} {s : IStrategy}
    (h : StrategyFactory.createSingle type p = .ok s) : Fresh s := by
  rcases StrategyFactory.createSingle_cases h with ⟨lookback, threshold, rfl⟩ | ⟨fast, slow, threshold, t, hinit, rfl⟩ |
    ⟨period, oversold, t, hinit, rfl⟩ | ⟨lookback, buffer, rfl⟩ | ⟨fast, slow, period, threshold, t, hinit, rfl⟩
  · exact leaf_fresh trivial (momentum_quiet lookback threshold)
  · exact leaf_fresh trivial (trend_quiet hinit)
  · exact leaf_fresh trivial (meanReversion_quiet hinit)
  · exact leaf_fresh trivial (breakout_quiet lookback buffer)
  · exact leaf_fresh trivial (multiTimeframeTrend_quiet hinit)

theorem ensemble_fresh (threshold : ℚ) {members : List (IStrategy × ℚ)} (h : ∀ m ∈ members, 0 < m.2 ∧ Fresh m.1) :
    Fresh (.ensemble threshold members) := by
  constructor
  · intro leaf hleaf
    rw [leaves, leavesOf_eq] at hleaf
    obtain ⟨m, hm, hleaf⟩ := List.mem_flatMap.mp hleaf
    exact (h m hm).2.quiet leaf hleaf
  · intro hnone
    rw [ensembles, ensemblesOf_eq] at hnone
    rw [thresholds, thresholdsOf_eq]
    refine List.forall_mem_cons.mpr ⟨?_, fun t ht => ?_⟩
    · have hself := hnone _ List.mem_cons_self
      rw [unprompted] at hself
      by_contra hthreshold
      have hscore := (not_lt.mp hthreshold).trans (score_nonneg fun m hm => (h m hm).1)
      rw [if_neg (not_lt.mpr hscore)] at hself
      cases hself
    · obtain ⟨m, hm, ht⟩ := List.mem_flatMap.mp ht
      exact (h m hm).2.pos (fun n hn => hnone n (List.mem_cons_of_mem _ (List.mem_flatMap.mpr ⟨m, hm, hn⟩))) t ht

theorem create_fresh {definition : Json} {s : IStrategy} (h : StrategyFactory.create definition = .ok s) : Fresh s := by
  have hP : StrategyFactory.Hereditary Fresh := { single := createSingle_fresh, ensemble := ensemble_fresh }
  exact hP.create definition h

/-- **Main result.**  No entry of a strategy the factory has built comes without
a leaf's, whatever the events, if and only if the thresholds and weights alone
bring none; and no entry of any ensemble in it does, if and only if every
threshold is positive. -/
theorem prompted_iff {definition : Json} {s : IStrategy} (h : StrategyFactory.create definition = .ok s) :
    ((∀ history e, Prompted (feed s history) e) ↔ unprompted s = none) ∧
    ((∀ history e, ∀ n ∈ ensembles (feed s history), Prompted n e) ↔ ∀ t ∈ thresholds s, 0 < t) := by
  have hfresh := create_fresh h
  constructor
  · constructor
    · intro hprompted
      exact none_of_prompted (fun leaf hleaf => hfresh.quiet leaf hleaf {}) (hprompted [] {})
    · intro hnone history e
      exact prompted_of_none ((feed_static s history).2.trans hnone) e
  · constructor
    · intro hprompted
      refine hfresh.pos fun n hn => ?_
      have hquiet : ∀ leaf ∈ leaves n, ¬ leaf.Buys {} := fun leaf hleaf =>
        hfresh.quiet leaf (leaves_ensembles s hn leaf hleaf) {}
      exact none_of_prompted hquiet (hprompted [] {} n hn)
    · intro hpos history e n hn
      rw [← (feed_static s history).1] at hpos
      exact prompted_of_none ((unprompted_of_pos _ hpos).2 n hn) e

/-- A momentum strategy alone in an ensemble of this threshold. -/
def thresholdZero : Json :=
  let momentum : Json := .object [("parameters", .object [("lookback", .integer 2)])]
  .object [("type", .string "ensemble"), ("threshold", .integer 0), ("members", .array [momentum])]

/-- The first event: the momentum strategy has no return yet, the ensemble buys. -/
theorem zero_threshold_buys : ∃ s, StrategyFactory.create thresholdZero = .ok s ∧
    s.Buys { price := 1 } ∧ ¬ Prompted (feed s []) { price := 1 } := by
  have hrun : (StrategyFactory.create thresholdZero).toOption.map
      (fun s => decide (s.Buys { price := 1 }) && (leaves s).all fun leaf => !decide (leaf.Buys { price := 1 })) =
        some true := by
    decide +kernel
  cases h : StrategyFactory.create thresholdZero with
  | error what =>
    rw [h] at hrun
    cases hrun
  | ok s =>
    rw [h] at hrun
    have hboth := Option.some.inj hrun
    rw [Bool.and_eq_true, List.all_eq_true] at hboth
    have hbuys : s.Buys { price := 1 } := of_decide_eq_true hboth.1
    refine ⟨s, rfl, hbuys, fun hprompted => ?_⟩
    obtain ⟨leaf, hleaf, hbuys'⟩ := hprompted hbuys
    have hquiet := hboth.2 leaf hleaf
    rw [decide_eq_true hbuys'] at hquiet
    cases hquiet

theorem prompted_iff_nested : ∃ s, StrategyFactory.create nestedEnsemble = .ok s ∧
    ((∀ history e, Prompted (feed s history) e) ↔ unprompted s = none) ∧
    ((∀ history e, ∀ n ∈ ensembles (feed s history), Prompted n e) ↔ ∀ t ∈ thresholds s, 0 < t) := by
  have hok : (StrategyFactory.create nestedEnsemble).isOk = true := by decide +kernel
  cases h : StrategyFactory.create nestedEnsemble with
  | error what =>
    rw [h] at hok
    cases hok
  | ok s => exact ⟨s, rfl, prompted_iff h⟩

end IStrategy

end Sentum.Strategy
