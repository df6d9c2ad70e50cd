import Sentum.Research.ModelPromotion

/-!
# Better evidence

Every gate of the promotion policy is a minimum or a maximum, apart from the
one on the profit factor, which must be finite as well.  Evidence that is at
least as good as what was accepted is accepted when it is
(`passesPolicy_better_iff`); an infinite factor is what `calculate` reports
when no trade has lost.
-/

namespace Sentum.Promotion

open Sentum Trader Backtest

/-- At least as good in everything that the policy looks at. -/
structure NoWorse (e better : StageEvidence) : Prop where
  trades : e.trades ≤ better.trades
  netProfit : e.netProfit ≤ better.netProfit
  profitFactor : e.profitFactor ≤ better.profitFactor
  winRate : e.winRate ≤ better.winRate
  sharpe : e.sharpe ≤ better.sharpe
  maxDrawdown : better.maxDrawdown ≤ e.maxDrawdown

/-- What `passes_policy` asks of the evidence, gate by gate. -/
structure MeetsPolicy (e : StageEvidence) (p : PromotionPolicy) : Prop where
  trades : p.minTrades ≤ e.trades
  netProfit : p.minNetProfit ≤ e.netProfit
  finite : e.profitFactor ≠ ⊤
  profitFactor : (p.minProfitFactor : WithTop ℚ) ≤ e.profitFactor
  winRate : p.minWinRate ≤ e.winRate
  sharpe : p.minSharpe ≤ e.sharpe
  maxDrawdown : 0 < p.maxDrawdown → e.maxDrawdown ≤ p.maxDrawdown

theorem passesPolicy_iff {e : StageEvidence} {p : PromotionPolicy} :
    (passesPolicy e p).1 = true ↔ MeetsPolicy e p := by
  unfold passesPolicy
  constructor
  · intro h
    split at h
    · cases h
    · next htrades =>
      split at h
      · cases h
      · next hprofit =>
        split at h
        · cases h
        · next hfactor =>
          split at h
          · cases h
          · next hwins =>
            split at h
            · cases h
            · next hsharpe =>
              split at h
              · cases h
              · next hdrawdown =>
                rw [not_or] at hfactor
                refine ⟨not_lt.mp htrades, not_lt.mp hprofit, hfactor.1, not_lt.mp hfactor.2, not_lt.mp hwins,
                  not_lt.mp hsharpe, fun hcap => ?_⟩
                exact not_lt.mp fun hlt => hdrawdown ⟨hcap, hlt⟩
  · intro h
    have hfactor : ¬ (e.profitFactor = ⊤ ∨ e.profitFactor < (p.minProfitFactor : WithTop ℚ)) := by
      rintro (htop | hlt)
      · exact h.finite htop
      · exact not_lt.mpr h.profitFactor hlt
    have hdrawdown : ¬ (0 < p.maxDrawdown ∧ p.maxDrawdown < e.maxDrawdown) := by
      rintro ⟨hcap, hlt⟩
      exact not_lt.mpr (h.maxDrawdown hcap) hlt
    rw [if_neg (not_lt.mpr h.trades), if_neg (not_lt.mpr h.netProfit), if_neg hfactor,
      if_neg (not_lt.mpr h.winRate), if_neg (not_lt.mpr h.sharpe), if_neg hdrawdown]

/-- The finite case. -/
theorem MeetsPolicy.better {e better : StageEvidence} {p : PromotionPolicy} (h : MeetsPolicy e p)
    (hb : NoWorse e better) (hfinite : better.profitFactor ≠ ⊤) : MeetsPolicy better p where
  trades := h.trades.trans hb.trades
  netProfit := h.netProfit.trans hb.netProfit
  finite := hfinite
  profitFactor := h.profitFactor.trans hb.profitFactor
  winRate := h.winRate.trans hb.winRate
  sharpe := h.sharpe.trans hb.sharpe
  maxDrawdown hcap := hb.maxDrawdown.trans (h.maxDrawdown hcap)

/-- **Better evidence passes** exactly when its profit factor is finite. -/
theorem passesPolicy_better_iff (p : PromotionPolicy) {e better : StageEvidence} (hb : NoWorse e better)
    (h : (passesPolicy e p).1 = true) :
    (passesPolicy better p).1 = true ↔ better.profitFactor ≠ ⊤ := by
  rw [passesPolicy_iff] at h ⊢
  exact ⟨fun hbetter => hbetter.finite, h.better hb⟩

/-- Evidence without a losing trade. -/
def flawlessEvidence : StageEvidence :=
  { stage := "research", trades := 40, netProfit := 200, profitFactor := ⊤, winRate := 100, sharpe := 2 }

/-- The same, with one small loss. -/
def nearlyFlawlessEvidence : StageEvidence :=
  { flawlessEvidence with netProfit := 199, profitFactor := ((200 : ℚ) : WithTop ℚ), winRate := 97 }

theorem passesPolicy_better_iff_nearlyFlawless :
    (passesPolicy nearlyFlawlessEvidence {}).1 = true ↔ nearlyFlawlessEvidence.profitFactor ≠ ⊤ := by
  have hb : NoWorse passingEvidence nearlyFlawlessEvidence :=
    ⟨by decide, by decide, by decide +kernel, by decide, by decide, by decide⟩
  have h : (passesPolicy passingEvidence {}).1 = true := by decide +kernel
  exact passesPolicy_better_iff {} hb h

/-- No loss at all is refused where less was accepted. -/
theorem flawlessEvidence_refused :
    NoWorse passingEvidence flawlessEvidence ∧ (passesPolicy passingEvidence {}).1 = true ∧
      (passesPolicy flawlessEvidence {}).1 = false :=
  ⟨⟨by decide, by decide, by decide, by decide, by decide, by decide⟩, by decide +kernel, by decide +kernel⟩

/-! ## Where an infinite factor comes from -/

/-- What is summed up as losses. -/
def lossOf (t : TradePosition) : ℚ := if 0 < t.netProfit then 0 else -t.netProfit

theorem lossOf_nonneg (t : TradePosition) : 0 ≤ lossOf t := by
  unfold lossOf
  split
  · exact le_refl 0
  · next h => exact neg_nonneg.mpr (not_lt.mp h)

theorem lossOf_eq_zero {t : TradePosition} : lossOf t = 0 ↔ 0 ≤ t.netProfit := by
  unfold lossOf
  split
  · next h => exact iff_of_true rfl h.le
  · next h =>
    rw [neg_eq_zero]
    exact ⟨fun h0 => h0.ge, fun h0 => le_antisymm (not_lt.mp h) h0⟩

theorem grossLoss_eq (trades : List TradePosition) : (Tally.of trades).grossLoss = (trades.map lossOf).sum := by
  have hfold : ∀ t : Tally, (trades.foldl Tally.add t).grossLoss = t.grossLoss + (trades.map lossOf).sum := by
    induction trades with
    | nil => intro t; simp
    | cons p trades ih =>
      intro t
      have hadd : (t.add p).grossLoss = t.grossLoss + lossOf p := by
        show (if 0 < p.netProfit then t.grossLoss else t.grossLoss + -p.netProfit) = _
        unfold lossOf
        split
        · rw [add_zero]
        · rfl
      rw [List.foldl_cons, ih, hadd, List.map_cons, List.sum_cons, add_assoc]
  rw [Tally.of, hfold]
  exact zero_add _

/-- The factor is infinite when there are trades and none has lost. -/
theorem profitFactor_eq_top_iff (fn : Cmath) (trades : List TradePosition) :
    (MetricsCalculator.calculate fn trades).profitFactor = ⊤ ↔ trades ≠ [] ∧ ∀ t ∈ trades, 0 ≤ t.netProfit := by
  have hnonneg : ∀ x ∈ trades.map lossOf, 0 ≤ x := by
    intro x hx
    obtain ⟨t, -, rfl⟩ := List.mem_map.mp hx
    exact lossOf_nonneg t
  have hzero : ¬ 0 < (Tally.of trades).grossLoss ↔ ∀ t ∈ trades, 0 ≤ t.netProfit := by
    rw [grossLoss_eq, not_lt]
    constructor
    · intro hle t ht
      have hsum : (trades.map lossOf).sum = 0 := le_antisymm hle (List.sum_nonneg hnonneg)
      exact lossOf_eq_zero.mp (List.all_zero_of_le_zero_le_of_sum_eq_zero hnonneg hsum
        (List.mem_map_of_mem ht))
    · intro hall
      refine (List.sum_eq_zero fun x hx => ?_).le
      obtain ⟨t, ht, rfl⟩ := List.mem_map.mp hx
      exact lossOf_eq_zero.mpr (hall t ht)
  unfold MetricsCalculator.calculate
  split
  · next h => simp [h]
  · next h =>
    dsimp only
    split
    · next hloss => exact iff_of_false (WithTop.coe_ne_top) fun hall => hzero.mpr hall.2 hloss
    · next hloss => exact iff_of_true rfl ⟨h, hzero.mp hloss⟩

/-- Trades of which none has lost do not pass any policy. -/
theorem noLosses_refused (p : PromotionPolicy) (fn : Cmath) {trades : List TradePosition} (hne : trades ≠ [])
    (hall : ∀ t ∈ trades, 0 ≤ t.netProfit) (stage : String) (start finish : Int) (artifact : String) :
    (passesPolicy (evidenceFromMetrics stage (MetricsCalculator.calculate fn trades) start finish artifact) p).1 =
      false := by
  rw [Bool.eq_false_iff]
  intro hpass
  exact (passesPolicy_iff.mp hpass).finite ((profitFactor_eq_top_iff fn trades).mpr ⟨hne, hall⟩)

end Sentum.Promotion
