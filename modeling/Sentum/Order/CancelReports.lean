import Sentum.Lib.Run
import Sentum.Order.LiveEntries

/-!
# Reports of cancellations

The exchange gives a cancel request an id of its own.  The CANCELED report of
an order carries that id in `c` and the order's in `C`; the manager reads `c`
only.  `cancelReport_iff` says which reports reach the order they are about.
-/

namespace Sentum.Order

open Sentum OrderManager Run

/-- The message is the CANCELED report of order `X`, sent for the request `r.clientOrderId`. -/
structure CancelReport (e : Json) (r : Report) (X : String) : Prop where
  read : readReport e = some r
  canceled : r.status = "CANCELED"
  original : string? e "C" = some X

/-- After the message the entry of `X` is Cancelled and no other entry has
been created or changed. -/
def Reaches (m : OrderManager) (e : Json) (X : String) : Prop :=
  ((m.onUserDataEvent e).manager.orders.lookup X).map Snapshot.state = some .cancelled ∧
    ∀ id, id ≠ X → (m.onUserDataEvent e).manager.orders.lookup id = m.orders.lookup id

theorem Report.snapshot_cancelled {r : Report} (h : r.status = "CANCELED") : r.snapshot.state = .cancelled := by
  simp only [Report.snapshot, h]
  decide

/-- **When a cancellation reaches its order**: the report carries the order's
own id in `c`, or the order is Cancelled already and the entry that the report
overwrites says the same. -/
theorem cancelReport_iff (m : OrderManager) {e : Json} {r : Report} {X : String} (h : CancelReport e r X) :
    Reaches m e X ↔ r.clientOrderId = X ∨
      ((m.orders.lookup X).map Snapshot.state = some .cancelled ∧
        m.orders.lookup r.clientOrderId = some r.snapshot) := by
  unfold Reaches
  rw [onUserDataEvent_of_read h.read m]
  dsimp only
  by_cases hc : r.clientOrderId = X
  · refine iff_of_true ⟨?_, fun id hid => ?_⟩ (Or.inl hc)
    · rw [hc, put_lookup, Option.map_some, Report.snapshot_cancelled h.canceled]
    · exact put_lookup_ne m _ (by rwa [hc])
  · rw [put_lookup_ne m _ (Ne.symm hc)]
    constructor
    · rintro ⟨hX, hother⟩
      have hown := hother r.clientOrderId hc
      rw [put_lookup] at hown
      exact Or.inr ⟨hX, hown.symm⟩
    · rintro (hown | ⟨hX, hown⟩)
      · exact absurd hown hc
      · refine ⟨hX, fun id _ => ?_⟩
        by_cases hid : id = r.clientOrderId
        · rw [hid, put_lookup, hown]
        · exact put_lookup_ne m _ hid

/-- An order whose cancellation goes to another entry stays Cancelling, and
trading cannot be resumed on this table. -/
theorem unreached_blocks_resume {m : OrderManager} {e : Json} {r : Report} {X : String} {c : Snapshot}
    (h : CancelReport e r X) (hc : r.clientOrderId ≠ X) (hX : m.orders.lookup X = some c)
    (hstate : c.state = .cancelling) :
    (m.onUserDataEvent e).manager.orders.lookup X = some c ∧
      ∀ u, (m.onUserDataEvent e).manager.clearKillSwitchForReconciledResume.result ≠ .ok u := by
  rw [onUserDataEvent_of_read h.read m]
  dsimp only
  have hl : (m.put r.clientOrderId r.snapshot).orders.lookup X = some c := by
    rw [put_lookup_ne m _ (Ne.symm hc), hX]
  refine ⟨hl, fun u hu => ?_⟩
  have hunresolved : ((m.put r.clientOrderId r.snapshot).orders.entries.any fun entry =>
      live entry.2.state || decide (entry.2.state = .cancelling)) = true :=
    List.any_eq_true.mpr ⟨⟨X, c⟩, AList.mem_lookup_iff.mp hl, by simp [hstate]⟩
  unfold clearKillSwitchForReconciledResume at hu
  rw [hunresolved, if_pos rfl] at hu
  split at hu <;> cases hu

/-! ## The cancellation of a working order -/

/-- The session's order is acknowledged and `cancel` has asked for its cancellation. -/
def cancellingRun : List OrderAction :=
  [.reconcile (.ok (.array [])) 0,
   .submitBegin { symbol := "BTCUSDT", quantity := 1, clientOrderId := "sentum-1" } 1, .submitPublish 0 fun _ => .ok (),
   .submitSettle 0 (fun _ => .ok ()) (.ok (.object [("orderId", .integer 7)])) 2, .cancelEntry "sentum-1" 3,
   .cancelPublish 0]

/-- A CANCELED report of the order, for the request with id `c`. -/
def canceledMessage (c : String) : Json :=
  .object [("e", .string "executionReport"), ("E", .integer 4), ("s", .string "BTCUSDT"), ("c", .string c),
    ("S", .string "BUY"), ("q", .string "1"), ("C", .string "sentum-1"), ("X", .string "CANCELED"),
    ("r", .string "NONE"), ("i", .integer 7), ("z", .string "0"), ("Z", .string "0")]

def canceledReport (c : String) : Report :=
  { clientOrderId := c, symbol := "BTCUSDT", exchangeOrderId := 7, side := .buy, requested := 1, executed := 0
    quote := 0, status := "CANCELED", reason := "NONE", eventTime := 4 }

theorem canceledMessage_read : CancelReport (canceledMessage "web-9") (canceledReport "web-9") "sentum-1" :=
  ⟨by decide +kernel, rfl, by decide +kernel⟩

/-- The report leaves the order Cancelling and creates an entry for the request. -/
theorem canceledMessage_misses :
    ¬ Reaches (exec OrderSystem.step {} cancellingRun).manager (canceledMessage "web-9") "sentum-1" ∧
      (exec OrderSystem.step {} cancellingRun).entryState "sentum-1" = some .cancelling := by
  refine ⟨?_, by decide +kernel⟩
  intro hreaches
  have hbefore : (exec OrderSystem.step {} cancellingRun).manager.orders.lookup "web-9" = none := by decide +kernel
  have hafter := hreaches.2 "web-9" (by decide)
  rw [onUserDataEvent_of_read canceledMessage_read.read, hbefore] at hafter
  cases (put_lookup _ _ _).symm.trans hafter

/-- A report under the order's own id. -/
theorem cancelReport_iff_own :
    Reaches (exec OrderSystem.step {} cancellingRun).manager (canceledMessage "sentum-1") "sentum-1" := by
  have hread : CancelReport (canceledMessage "sentum-1") (canceledReport "sentum-1") "sentum-1" :=
    ⟨by decide +kernel, rfl, by decide +kernel⟩
  exact (cancelReport_iff (exec OrderSystem.step {} cancellingRun).manager hread).mpr (Or.inl rfl)

end Sentum.Order
