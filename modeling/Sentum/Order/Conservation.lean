import Mathlib.Data.List.Infix
import Sentum.Lib.LastPerKey
import Sentum.Order.LedgerRuns

/-!
# What the ledger conserves

`executedQuantity` of a report is cumulative, so an order has executed what
its last report says, however it ended.  `netExecuted` is that total per
symbol; `netFilled` counts only the orders that ended FILLED, and this is the
one the ledger keeps (`ledger_netFilled`), up to `dust` for each sell.
-/

namespace Sentum.Order

open Sentum OrderManager Run OrderAction OrderSystem ConfirmedPositionLedger

namespace Report

/-- BUY counts up, SELL counts down. -/
def signed (r : Report) : ℚ :=
  match r.side with
  | .buy => r.executed
  | .sell => -r.executed

def signedIn (symbol : String) (r : Report) : ℚ := if r.symbol = symbol then r.signed else 0

def filledIn (symbol : String) (r : Report) : ℚ := if r.status = "FILLED" then r.signedIn symbol else 0

/-- The report ends its order. -/
def Ends (r : Report) : Prop := (OrderManager.map r.status).Terminal

instance (r : Report) : Decidable r.Ends := inferInstanceAs (Decidable (State.Terminal _))

end Report

/-- BUY minus SELL over all orders. -/
def netExecuted (rs : List Report) (symbol : String) : ℚ :=
  LastPerKey.total Report.clientOrderId (Report.signedIn symbol) rs

/-- BUY minus SELL over the orders that ended FILLED. -/
def netFilled (rs : List Report) (symbol : String) : ℚ :=
  LastPerKey.total Report.clientOrderId (Report.filledIn symbol) rs

/-- The FILLED sells of a symbol. -/
def filledSells (rs : List Report) (symbol : String) : Nat :=
  rs.countP fun r => r.confirmedFill && decide (r.symbol = symbol) && decide (r.side = .sell)

/-- What an exchange sends: each order's reports agree on what it is, its
executed quantity never shrinks, and nothing follows the report that ends it. -/
structure OrderStream (rs : List Report) : Prop where
  orderId : ∀ r ∈ rs, 0 < r.exchangeOrderId
  executed : ∀ r ∈ rs, 0 ≤ r.executed
  inOrder : rs.Pairwise fun r r' => r'.clientOrderId = r.clientOrderId →
    r'.symbol = r.symbol ∧ r'.side = r.side ∧ r.executed ≤ r'.executed ∧ ¬ r.Ends

instance (rs : List Report) : Decidable (OrderStream rs) :=
  decidable_of_iff ((∀ r ∈ rs, 0 < r.exchangeOrderId) ∧ (∀ r ∈ rs, 0 ≤ r.executed) ∧
    rs.Pairwise fun r r' => r'.clientOrderId = r.clientOrderId →
      r'.symbol = r.symbol ∧ r'.side = r.side ∧ r.executed ≤ r'.executed ∧ ¬ r.Ends)
    ⟨fun h => ⟨h.1, h.2.1, h.2.2⟩, fun h => ⟨h.orderId, h.executed, h.inOrder⟩⟩

/-- Every order has had the report that ends it. -/
def AllEnded (rs : List Report) : Prop := ∀ r ∈ rs, ∃ l ∈ rs, l.clientOrderId = r.clientOrderId ∧ l.Ends

instance (rs : List Report) : Decidable (AllEnded rs) :=
  inferInstanceAs (Decidable (∀ r ∈ rs, ∃ l ∈ rs, l.clientOrderId = r.clientOrderId ∧ l.Ends))

theorem OrderStream.of_append {rs : List Report} {r : Report} (h : OrderStream (rs ++ [r])) :
    OrderStream rs ∧ ∀ y ∈ rs, r.clientOrderId = y.clientOrderId → ¬ y.Ends := by
  have hsub : ∀ y ∈ rs, y ∈ rs ++ [r] := fun y hy => List.mem_append_left _ hy
  obtain ⟨hpre, -, hlast⟩ := List.pairwise_append.mp h.inOrder
  refine ⟨⟨fun y hy => h.orderId y (hsub y hy), fun y hy => h.executed y (hsub y hy), hpre⟩, ?_⟩
  intro y hy hid
  exact (hlast y hy r (List.mem_singleton_self r) hid).2.2.2

theorem ends_of_filled {r : Report} (h : r.status = "FILLED") : r.Ends := by
  unfold Report.Ends
  rw [h]
  decide

/-- A further report adds its own filled quantity: the one it supersedes was
not FILLED, or it would have been its order's last. -/
theorem netFilled_snoc {rs : List Report} {r : Report} (h : OrderStream (rs ++ [r])) (symbol : String) :
    netFilled (rs ++ [r]) symbol = netFilled rs symbol + r.filledIn symbol := by
  refine LastPerKey.total_snoc_of_fresh _ _ fun y hy => ?_
  obtain ⟨hmem, hid⟩ := LastPerKey.last_eq_some _ hy
  have hne : ¬ y.status = "FILLED" := fun hf => h.of_append.2 y hmem hid.symm (ends_of_filled hf)
  rw [Report.filledIn, if_neg hne]

theorem filledSells_snoc (rs : List Report) (r : Report) (symbol : String) :
    filledSells (rs ++ [r]) symbol = filledSells rs symbol +
      if r.confirmedFill = true ∧ r.symbol = symbol ∧ r.side = .sell then 1 else 0 := by
  simp [filledSells, List.countP_append, List.countP_cons, and_assoc]

/-- What one report does to the quantity the ledger holds. -/
theorem ledgerOf_snoc_quantity (rs : List Report) (r : Report) (symbol : String) :
    (ledgerOf (rs ++ [r])).quantity symbol =
      if r.confirmedFill = true ∧ r.symbol = symbol then
        afterFill r.side ((ledgerOf rs).quantity symbol) r.executed
      else (ledgerOf rs).quantity symbol := by
  rw [ledgerOf_snoc]
  cases hc : r.confirmedFill with
  | false =>
    have hne : r.snapshot.exchangeConfirmedFill = false := by rw [snapshot_exchangeConfirmedFill, hc]
    rw [onOrderUpdate_of_not_fill hne]
    simp
  | true =>
    have hfill : r.snapshot.exchangeConfirmedFill = true := by rw [snapshot_exchangeConfirmedFill, hc]
    rw [onOrderUpdate_quantity hfill]
    by_cases hsym : r.symbol = symbol
    · subst hsym
      simp [Report.snapshot]
    · have hsym' : symbol ≠ r.snapshot.symbol := fun h => hsym h.symm
      rw [if_neg hsym', if_neg (fun h => hsym h.2)]

/-- A FILLED report that is no confirmed fill has executed nothing. -/
theorem filledIn_of_not_confirmed {r : Report} (hid : 0 < r.exchangeOrderId) (hex : 0 ≤ r.executed)
    (hc : r.confirmedFill = false) (symbol : String) : r.filledIn symbol = 0 := by
  unfold Report.filledIn
  split
  · next hf =>
    have hz : r.executed = 0 := by
      by_contra hne
      have hpos : 0 < r.executed := lt_of_le_of_ne hex (Ne.symm hne)
      simp [Report.confirmedFill, hf, hid, hpos] at hc
    unfold Report.signedIn Report.signed
    rw [hz]
    split
    · cases r.side <;> simp
    · rfl
  · rfl

/-- **What the ledger keeps.**  It holds the net of the FILLED orders, short
of at most `dust` for each sell. -/
theorem ledgerOf_netFilled {rs : List Report} (h : OrderStream rs) {symbol : String}
    (hnn : ∀ pre ∈ rs.inits, 0 ≤ netFilled pre symbol) :
    (ledgerOf rs).quantity symbol ≤ netFilled rs symbol ∧
      netFilled rs symbol ≤ (ledgerOf rs).quantity symbol + dust * filledSells rs symbol := by
  induction rs using List.reverseRecOn with
  | nil => simp [ledgerOf, netFilled, filledSells]
  | append_singleton rs r ih =>
    have hpre : ∀ pre ∈ rs.inits, 0 ≤ netFilled pre symbol := fun pre hp =>
      hnn pre (List.mem_inits _ _ |>.mpr (((List.mem_inits _ _).mp hp).trans (List.prefix_append _ _)))
    have hend : 0 ≤ netFilled (rs ++ [r]) symbol := hnn _ ((List.mem_inits _ _).mpr (List.prefix_refl _))
    obtain ⟨hlow, hhigh⟩ := ih h.of_append.1 hpre
    have hdust := dust_pos
    rw [netFilled_snoc h] at hend ⊢
    rw [ledgerOf_snoc_quantity, filledSells_snoc]
    cases hc : r.confirmedFill with
    | false =>
      have hr : r ∈ rs ++ [r] := List.mem_append_right _ (List.mem_singleton_self r)
      rw [filledIn_of_not_confirmed (h.orderId r hr) (h.executed r hr) hc]
      simp only [Bool.false_eq_true, false_and, if_false, add_zero]
      exact ⟨hlow, hhigh⟩
    | true =>
      have hst : r.status = "FILLED" := by
        simp only [Report.confirmedFill, Bool.and_eq_true, decide_eq_true_eq] at hc
        exact hc.1.1
      by_cases hsym : r.symbol = symbol
      · simp only [hsym, true_and, if_true]
        cases hs : r.side with
        | buy =>
          have hin : r.filledIn symbol = r.executed := by
            simp [Report.filledIn, hst, Report.signedIn, hsym, Report.signed, hs]
          rw [hin]
          simp only [afterFill, reduceCtorEq, if_false, Nat.add_zero]
          constructor <;> linarith
        | sell =>
          have hin : r.filledIn symbol = -r.executed := by
            simp [Report.filledIn, hst, Report.signedIn, hsym, Report.signed, hs]
          rw [hin] at hend ⊢
          simp only [afterFill, if_true]
          push_cast
          -- the sell empties the position down to dust, or leaves the rest
          split
          · constructor <;> nlinarith
          · constructor <;> nlinarith
      · have hin : r.filledIn symbol = 0 := by
          simp [Report.filledIn, Report.signedIn, hsym]
        rw [hin]
        simp only [hsym, false_and, and_false, if_false, add_zero]
        exact ⟨hlow, hhigh⟩

/-- **The session's ledger** holds what its FILLED orders executed, however
submissions, cancels, kills and reconciliations fall between the reports. -/
theorem ledger_netFilled (m : OrderManager) (as : List OrderAction) (symbol : String)
    (hwf : WellFormed (reports as)) (hs : OrderStream (delivered as))
    (hnn : ∀ pre ∈ (delivered as).inits, 0 ≤ netFilled pre symbol) :
    (exec step { manager := m } as).ledger.quantity symbol ≤ netFilled (delivered as) symbol ∧
      netFilled (delivered as) symbol ≤ (exec step { manager := m } as).ledger.quantity symbol +
        dust * filledSells (delivered as) symbol := by
  rw [ledger_delivered m hwf]
  exact ledgerOf_netFilled hs hnn

/-- A purchase is filled and a second one is cancelled half way. -/
theorem ledger_netFilled_tradeRun :
    (exec step { manager := { reconciled := true } } tradeRun).ledger.quantity "BTCUSDT" ≤
        netFilled (delivered tradeRun) "BTCUSDT" ∧
      netFilled (delivered tradeRun) "BTCUSDT" ≤
        (exec step { manager := { reconciled := true } } tradeRun).ledger.quantity "BTCUSDT" +
          dust * filledSells (delivered tradeRun) "BTCUSDT" :=
  ledger_netFilled { reconciled := true } tradeRun "BTCUSDT" (by decide +kernel) (by decide +kernel)
    (by decide +kernel)

/-! ## What it does not keep -/

/-- The ledger is right up to `dust`. -/
def Conserved (s : OrderSystem) (rs : List Report) (symbol : String) : Prop :=
  |netExecuted rs symbol - s.ledger.quantity symbol| ≤ dust

instance (s : OrderSystem) (rs : List Report) (symbol : String) : Decidable (Conserved s rs symbol) :=
  inferInstanceAs (Decidable (_ ≤ dust))

/-- Half of the order executes, the rest is cancelled. -/
def partialRun : List OrderAction :=
  place { symbol := "BTCUSDT", quantity := 1, clientOrderId := "sentum-1" } ++
    deliver [btc "sentum-1" .buy 1 0 "NEW", btc "sentum-1" .buy 1 (1 / 2) "PARTIALLY_FILLED",
      btc "sentum-1" .buy 1 (1 / 2) "CANCELED"]

/-- Two round trips, each of which leaves `dust` unsold. -/
def dustRun : List OrderAction :=
  deliver [btc "sentum-1" .buy 1 1 "FILLED", btc "sentum-2" .sell (1 - dust) (1 - dust) "FILLED",
    btc "sentum-3" .buy 1 1 "FILLED", btc "sentum-4" .sell (1 - dust) (1 - dust) "FILLED"]

/-- The reports are well formed, in order, complete and never sell short, and
still the ledger is off by more than `dust`. -/
def Drifts (as : List OrderAction) (symbol : String) : Prop :=
  WellFormed (reports as) ∧ OrderStream (delivered as) ∧ AllEnded (delivered as) ∧
    (∀ pre ∈ (delivered as).inits, 0 ≤ netExecuted pre symbol) ∧
    ¬ Conserved (exec step { manager := { reconciled := true } } as) (delivered as) symbol

instance (as : List OrderAction) (symbol : String) : Decidable (Drifts as symbol) :=
  inferInstanceAs (Decidable (_ ∧ _ ∧ _ ∧ _ ∧ ¬ Conserved _ _ _))

theorem partialRun_dustRun_not_conserved : Drifts partialRun "BTCUSDT" ∧ Drifts dustRun "BTCUSDT" := by
  decide +kernel

end Sentum.Order
