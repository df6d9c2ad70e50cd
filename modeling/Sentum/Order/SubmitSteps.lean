import Sentum.Order.OrderManager

/-!
# The steps of a submission

`submit_market` as its thread runs it: each step is one atomic load, one locked
section, one call of the update handler outside the lock, or the start of the
placement.  `answer` is the exchange's part.  `alone_eq` says that the steps in
a row are `OrderManager.submitMarket`.
-/

namespace Sentum.Order

open Sentum OrderManager

/-- Where a call of `submit_market` is: the first six name the step it takes next. -/
inductive SubmitPhase where
  | loadReconciled
  | loadKill
  | insert
  | publish (p : Snapshot)
  | place
  | settle (reply : Except String Json)
  /-- `place_market_order` has been called and has not answered -/
  | placing
  | returned (c : Snapshot)
  | threw (what : String)

/-- What the outcome writes, and how the call ends if the placement is acknowledged. -/
theorem submitSettle_entry {m : OrderManager} {id : String} {c : Snapshot} (hc : m.orders.lookup id = some c)
    (h : UpdateHandler) (reply : Except String Json) (now : TimePoint) :
    ∃ c', (submitSettle h m id reply now).manager = m.put id c' ∧ c'.clientOrderId = c.clientOrderId ∧
      c'.symbol = c.symbol ∧ (acknowledges h m id reply now = true →
        c'.state = .acknowledged ∧ (submitSettle h m id reply now).result = .ok c') := by
  cases reply with
  | error what => exact ⟨_, rejectSubmission_of_entry hc h [] what now, rfl, rfl, fun hack => nomatch hack⟩
  | ok ack =>
    cases hv : ack.value Json.getInt64 "orderId" 0 with
    | error what =>
      have hk : acknowledge m id ack now = .error what := by simp only [acknowledge, hc, hv]
      refine ⟨{ c with state := .rejected, rejectionReason := what, updatedAt := now }, ?_, rfl, rfl, ?_⟩
      · simp only [submitSettle, hk]
        exact rejectSubmission_of_entry hc h [] what now
      · simp [acknowledges, hk]
    | ok i =>
      let c₁ : Snapshot := { c with exchangeOrderId := i, state := .acknowledged, updatedAt := now }
      have hk : acknowledge m id ack now = .ok c₁ := by simp only [acknowledge, hc, hv, c₁]
      cases hh : h c₁ with
      | ok x => exact ⟨c₁, by simp only [submitSettle, hk, hh], rfl, rfl, fun _ => ⟨rfl, by simp only [submitSettle, hk, hh]⟩⟩
      | error what =>
        refine ⟨{ c₁ with state := .rejected, rejectionReason := what, updatedAt := now }, ?_, rfl, rfl, ?_⟩
        · simp only [submitSettle, hk, hh]
          rw [rejectSubmission_of_entry (put_lookup m id c₁)]
          simp only [put, AList.insert_insert]
        · simp [acknowledges, hk, hh, Except.isOk, Except.toBool]

namespace SubmitPhase

/-- The step of one thread: the phase after it, and the manager. -/
def step (r : Request) (h : UpdateHandler) (now : TimePoint) (m : OrderManager) : SubmitPhase → SubmitPhase × OrderManager
  | loadReconciled =>
    (if m.reconciled then loadKill
      else threw "Orders cannot be submitted before startup reconciliation", m)
  | loadKill =>
    (if m.killSwitch then threw "Kill switch is active"
      else if r.quantity ≤ 0 ∨ r.symbol = "" ∨ r.clientOrderId = "" then threw "Invalid order request"
      else insert, m)
  | insert =>
    let inserted := m.insertEntry r now
    match inserted.result with
    | .ok p => (publish p, inserted.manager)
    | .error what => (threw what, inserted.manager)
  | publish p =>
    match h p with
    | .ok _ => (place, m)
    | .error what => (threw what, m)
  | place => (placing, m)
  | settle reply =>
    let settled := m.submitSettle h r.clientOrderId reply now
    match settled.result with
    | .ok c => (returned c, settled.manager)
    | .error what => (threw what, settled.manager)
  | phase => (phase, m)

/-- `place_market_order` returns or throws. -/
def answer (reply : Except String Json) : SubmitPhase → SubmitPhase
  | placing => settle reply
  | phase => phase

/-- The entry has been inserted, and the call goes on. -/
def inserted : SubmitPhase → Bool
  | publish _ | place | placing | settle _ | returned _ => true
  | _ => false

/-- The kill flag has been read, the entry not yet inserted. -/
def checked : SubmitPhase → Bool
  | insert => true
  | _ => false

/-- The entry has been inserted, and the exchange has not decided. -/
def undecided : SubmitPhase → Bool
  | publish _ | place | placing => true
  | _ => false

/-- The next step calls `place_market_order`. -/
def atPlace : SubmitPhase → Bool
  | place => true
  | _ => false

/-- What the placement has come back with. -/
def answered : SubmitPhase → Option (Except String Json)
  | settle reply => some reply
  | _ => none

def isReturned : SubmitPhase → Bool
  | returned _ => true
  | _ => false

def isThrown : SubmitPhase → Bool
  | threw _ => true
  | _ => false

def finished (phase : SubmitPhase) : Bool := phase.isReturned || phase.isThrown

theorem inserted_of_undecided {phase : SubmitPhase} (h : phase.undecided = true) : phase.inserted = true := by
  cases phase <;> first | rfl | cases h

theorem step_insert (r : Request) (h : UpdateHandler) (now : TimePoint) (m : OrderManager) :
    insert.step r h now m =
      if (m.orders.lookup r.clientOrderId).isSome then (threw "Duplicate client order id", m)
      else (publish (pendingSnapshot r now), m.put r.clientOrderId (pendingSnapshot r now)) := by
  cases hdup : (m.orders.lookup r.clientOrderId).isSome with
  | true => simp only [step, insertEntry, hdup, if_true]
  | false => simp only [step, insertEntry, hdup, if_false, Bool.false_eq_true]

/-- How a call ends. -/
def ofResult : Except String Snapshot → SubmitPhase
  | .ok c => returned c
  | .error what => threw what

theorem step_settle (r : Request) (h : UpdateHandler) (now : TimePoint) (m : OrderManager)
    (reply : Except String Json) : (settle reply).step r h now m =
      (ofResult (m.submitSettle h r.clientOrderId reply now).result,
        (m.submitSettle h r.clientOrderId reply now).manager) := by
  simp only [step]
  split <;> next hr => rw [hr]; rfl

theorem ofResult_undecided (x : Except String Snapshot) : (ofResult x).undecided = false := by
  cases x <;> rfl

theorem ofResult_checked (x : Except String Snapshot) : (ofResult x).checked = false := by
  cases x <;> rfl

theorem ofResult_isReturned (x : Except String Snapshot) : (ofResult x).isReturned = x.isOk := by
  cases x <;> rfl

/-! ## The steps in a row -/

/-- All the steps of a call, with no other thread in between. -/
def alone (r : Request) (h : UpdateHandler) (reply : Except String Json) (now : TimePoint) (m : OrderManager) :
    SubmitPhase × OrderManager :=
  let next := fun x : SubmitPhase × OrderManager => x.1.step r h now x.2
  let started := next (next (next (next (next (loadReconciled, m)))))
  next (started.1.answer reply, started.2)

/-- **The steps in a row are `submit_market`.** -/
theorem alone_eq (r : Request) (h : UpdateHandler) (reply : Except String Json) (now : TimePoint)
    (m : OrderManager) : alone r h reply now m =
      (ofResult (m.submitMarket h r reply now).result, (m.submitMarket h r reply now).manager) := by
  unfold alone submitMarket
  rw [submitBegin_eq]
  cases hrec : m.reconciled with
  | false => simp [step, answer, ofResult, hrec]
  | true =>
    cases hkill : m.killSwitch with
    | true => simp [step, answer, ofResult, hrec, hkill]
    | false =>
      by_cases hvalid : r.quantity ≤ 0 ∨ r.symbol = "" ∨ r.clientOrderId = ""
      · simp [step, answer, ofResult, hrec, hkill, hvalid]
      · cases hi : (m.insertEntry r now).result with
        | error what => simp [step, answer, ofResult, hrec, hkill, hvalid, hi]
        | ok p =>
          cases hp : h p with
          | error what => simp [step, answer, ofResult, hrec, hkill, hvalid, hi, hp]
          | ok x =>
            simp only [step, answer, hrec, hkill, hvalid, hi, hp, if_true, if_false, Bool.not_true,
              Bool.false_eq_true]
            exact step_settle r h now _ reply

end SubmitPhase

end Sentum.Order
