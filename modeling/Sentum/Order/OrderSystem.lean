import Sentum.Lib.Run
import Sentum.Order.ConfirmedPositionLedger
import Sentum.Order.Report

/-!
# Interleavings of the order manager

The threads that share an `OrderManager`: any number of callers of
`submit_market` and `cancel`, the kill switch, startup reconciliation and the
one thread of the user data stream.  An action is one locked section or one
call of the update handler outside the lock; `OrderSystem` holds, besides the
manager, what each thread has in hand between two of its actions.

The update handler is the one `LiveOrderSession::start` installs: it gives the
snapshot to the ledger and then to an external handler, which may throw.
-/

namespace Sentum.Order

open Sentum OrderManager

/-- A `submit_market` call between the insertion of its entry and the outcome
of its placement. -/
structure Submission where
  request : Request
  /-- the Pending snapshot -/
  pending : Snapshot
  /-- the handler has seen it, the order is being placed -/
  placing : Bool := false

structure OrderSystem where
  manager : OrderManager := {}
  ledger : ConfirmedPositionLedger := {}
  submissions : List Submission := []
  /-- snapshots that callers of `cancel` have yet to publish -/
  cancels : List Snapshot := []
  /-- orders that `activate_kill_switch` has yet to cancel -/
  killQueue : List String := []
  /-- the snapshot the stream thread has yet to publish -/
  update : Option Snapshot := none

inductive OrderAction where
  | submitBegin (r : Request) (now : TimePoint)
  | submitPublish (n : Nat) (h : UpdateHandler)
  | submitSettle (n : Nat) (h : UpdateHandler) (reply : Except String Json) (now : TimePoint)
  | cancelEntry (id : String) (now : TimePoint)
  | cancelPublish (n : Nat)
  | killStore
  | killScan
  | killCancel (n : Nat) (now : TimePoint)
  | report (e : Json)
  | reportPublish
  | reconcile (reply : Except String Json) (now : TimePoint)

namespace OrderAction

/-- The messages the stream delivers in a run, in order. -/
def reports (as : List OrderAction) : List Json :=
  as.filterMap fun a =>
    match a with
    | report e => some e
    | _ => none

theorem mem_reports {as : List OrderAction} {e : Json} : e ∈ reports as ↔ report e ∈ as := by
  unfold reports
  rw [List.mem_filterMap]
  constructor
  · rintro ⟨a, ha, he⟩
    cases a <;> simp_all
  · intro h
    exact ⟨report e, h, rfl⟩

end OrderAction

namespace OrderSystem

/-- `cancel` up to the end of its lock. -/
def markCancelling (s : OrderSystem) (id : String) (now : TimePoint) : OrderSystem :=
  let marked := s.manager.cancelEntry id now
  match marked.result with
  | .ok (c, true) => { s with manager := marked.manager, cancels := s.cancels ++ [c] }
  | _ => { s with manager := marked.manager }

def step (s : OrderSystem) : OrderAction → OrderSystem
  | .submitBegin r now =>
    let inserted := s.manager.submitBegin r now
    match inserted.result with
    | .ok pending =>
      { s with manager := inserted.manager, submissions := s.submissions ++ [{ request := r, pending }] }
    | .error _ => { s with manager := inserted.manager }
  | .submitPublish n h =>
    match s.submissions[n]? with
    | none => s
    | some sub =>
      if sub.placing then s
      else
        let s := { s with ledger := s.ledger.onOrderUpdate sub.pending }
        match h sub.pending with
        | .ok _ => { s with submissions := s.submissions.set n { sub with placing := true } }
        | .error _ => { s with submissions := s.submissions.eraseIdx n }
  | .submitSettle n h reply now =>
    match s.submissions[n]? with
    | none => s
    | some sub =>
      if sub.placing then
        let settled := s.manager.submitSettle h sub.request.clientOrderId reply now
        { s with
          manager := settled.manager
          ledger := settled.published.foldl ConfirmedPositionLedger.onOrderUpdate s.ledger
          submissions := s.submissions.eraseIdx n }
      else s
  | .cancelEntry id now => s.markCancelling id now
  | .cancelPublish n =>
    match s.cancels[n]? with
    | none => s
    | some c => { s with ledger := s.ledger.onOrderUpdate c, cancels := s.cancels.eraseIdx n }
  | .killStore => { s with manager := { s.manager with killSwitch := true } }
  | .killScan => { s with killQueue := s.killQueue ++ s.manager.killScan }
  | .killCancel n now =>
    match s.killQueue[n]? with
    | none => s
    | some id => { s with killQueue := s.killQueue.eraseIdx n }.markCancelling id now
  | .report e =>
    -- one thread delivers the stream: it publishes a report before the next
    if s.update.isSome then s
    else
      let applied := s.manager.onUserDataEvent e
      match applied.result with
      | .ok update => { s with manager := applied.manager, update }
      | .error _ => { s with manager := applied.manager }
  | .reportPublish =>
    match s.update with
    | none => s
    | some u => { s with ledger := s.ledger.onOrderUpdate u, update := none }
  | .reconcile reply now => { s with manager := (s.manager.reconcileStartup reply now).manager }

/-- Action `.submitSettle n` is the REST outcome of an order with client id `id`. -/
def Settles (s : OrderSystem) (n : Nat) (id : String) : Prop :=
  ∃ sub, s.submissions[n]? = some sub ∧ sub.placing = true ∧ sub.request.clientOrderId = id

/-- The table's state of an order. -/
def entryState (s : OrderSystem) (id : String) : Option State :=
  (s.manager.orders.lookup id).map Snapshot.state

@[simp] theorem markCancelling_manager (s : OrderSystem) (id : String) (now : TimePoint) :
    (s.markCancelling id now).manager = (s.manager.cancelEntry id now).manager := by
  unfold markCancelling
  simp only
  split <;> rfl

@[simp] theorem markCancelling_ledger (s : OrderSystem) (id : String) (now : TimePoint) :
    (s.markCancelling id now).ledger = s.ledger := by
  unfold markCancelling
  simp only
  split <;> rfl

@[simp] theorem markCancelling_update (s : OrderSystem) (id : String) (now : TimePoint) :
    (s.markCancelling id now).update = s.update := by
  unfold markCancelling
  simp only
  split <;> rfl

theorem mem_markCancelling_cancels {s : OrderSystem} {id : String} {now : TimePoint} {c : Snapshot}
    (h : c ∈ (s.markCancelling id now).cancels) : c ∈ s.cancels ∨ c.state = .cancelling := by
  unfold markCancelling at h
  simp only at h
  split at h
  · next c' hc =>
    rcases List.mem_append.mp h with h | h
    · exact Or.inl h
    · rw [List.mem_singleton.mp h]
      exact Or.inr (cancelEntry_published hc)
  · exact Or.inl h

theorem step_submitBegin_manager (s : OrderSystem) (r : Request) (now : TimePoint) :
    (step s (.submitBegin r now)).manager = (s.manager.submitBegin r now).manager := by
  simp only [step]
  split <;> rfl

theorem step_report_manager (s : OrderSystem) (e : Json) (h : s.update = none) :
    (step s (.report e)).manager = (s.manager.onUserDataEvent e).manager := by
  simp only [step, h, Option.isSome_none, Bool.false_eq_true, if_false]
  split <;> rfl

theorem step_submitPublish_manager (s : OrderSystem) (n : Nat) (h : UpdateHandler) :
    (step s (.submitPublish n h)).manager = s.manager := by
  simp only [step]
  split
  · rfl
  · split
    · rfl
    · split <;> rfl

/-- Only `killStore` sets the kill switch, and no action clears it. -/
theorem step_killSwitch (s : OrderSystem) {a : OrderAction} (ha : a ≠ .killStore) :
    (step s a).manager.killSwitch = s.manager.killSwitch := by
  have hmark : ∀ (s : OrderSystem) (id : String) (now : TimePoint),
      (s.markCancelling id now).manager.killSwitch = s.manager.killSwitch := by
    intro s id now
    rw [markCancelling_manager]
    rcases cancelEntry_manager s.manager id now with hm | ⟨c, -, -, hm⟩ <;> rw [hm]
    rfl
  cases a with
  | submitBegin r now =>
    rw [step_submitBegin_manager]
    rcases submitBegin_manager s.manager r now with hm | ⟨-, hm⟩ <;> rw [hm]
    rfl
  | submitPublish n h => rw [step_submitPublish_manager]
  | submitSettle n h reply now =>
    simp only [step]
    split
    · rfl
    · next sub _ =>
      split
      · cases hc : s.manager.orders.lookup sub.request.clientOrderId with
        | none => rw [submitSettle_of_missing hc]
        | some c =>
          obtain ⟨c', hm, -⟩ := submitSettle_of_entry hc h reply now
          rw [hm, put_killSwitch]
      · rfl
  | cancelEntry id now => exact hmark s id now
  | killStore => exact absurd rfl ha
  | killCancel n now =>
    simp only [step]
    split
    · rfl
    · exact hmark _ _ now
  | report e =>
    simp only [step]
    have hm : (s.manager.onUserDataEvent e).manager.killSwitch = s.manager.killSwitch := by
      rcases onUserDataEvent_manager s.manager e with ⟨-, hm⟩ | ⟨id, c, -, hm⟩ <;> rw [hm]
      rfl
    repeat' split
    all_goals first | rfl | exact hm
  | reconcile reply now =>
    simp only [step, reconcileStartup]
    repeat' split
    all_goals rfl
  | _ =>
    simp only [step]
    repeat' split
    all_goals rfl

end OrderSystem

end Sentum.Order
