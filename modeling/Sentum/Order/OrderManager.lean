import Mathlib.Data.List.AList
import Sentum.Nlohmann.Json
import Sentum.Order.OrderTypes
import Sentum.Std.Stod

/-!
# The order manager

`OrderManager` keeps the table of orders that the REST calls and the user
data stream write.  Each operation is cut where it releases its lock or calls
the exchange, so that a run can interleave the pieces:

* `submitBegin` inserts the Pending entry, `submitSettle` processes the
  outcome of the REST placement; `submitMarket` is the two in a row.
* `cancelEntry` is the locked part of `cancel`.
* `killScan` is the locked part of `activateKillSwitch`.
* `onUserDataEvent` applies one message of the user data stream.

An operation returns the manager, the snapshots given to the update handler
and its result; an exception leaves what was written before it.
-/

namespace Sentum.Order

open Sentum

/-- `std::unordered_map<std::string, Snapshot>` -/
abbrev Table := AList (fun _ : String => Snapshot)

structure OrderManager where
  orders : Table := ∅
  reconciled : Bool := false
  killSwitch : Bool := false

/-- The update handler: it returns or throws. -/
abbrev UpdateHandler := Snapshot → Except String Unit

/-- What an operation leaves behind. -/
structure Outcome (α : Type) where
  manager : OrderManager
  /-- snapshots the update handler was called with, in order -/
  published : List Snapshot := []
  result : Except String α

namespace OrderManager

/-- Text of the `std::out_of_range` of `orders_.at`. -/
def missingEntry : String := "unordered_map::at"

/-- Overwrite the entry of `id`. -/
def put (m : OrderManager) (id : String) (c : Snapshot) : OrderManager :=
  { m with orders := m.orders.insert id c }

@[simp] theorem put_lookup (m : OrderManager) (id : String) (c : Snapshot) :
    (m.put id c).orders.lookup id = some c := AList.lookup_insert _

theorem put_lookup_ne (m : OrderManager) {id id' : String} (c : Snapshot) (h : id' ≠ id) :
    (m.put id c).orders.lookup id' = m.orders.lookup id' := AList.lookup_insert_ne h

@[simp] theorem put_killSwitch (m : OrderManager) (id : String) (c : Snapshot) :
    (m.put id c).killSwitch = m.killSwitch := rfl

/-! ## Reading exchange messages -/

/-- A quantity given as a number or as text; `f` where it is absent or unreadable. -/
def parse (v : Json) (k : String) (f : ℚ) : ℚ :=
  match v.find? k with
  | none => f
  | some (.string s) => (Std.stod s).getD f
  | some j =>
    match j.getDouble with
    | .ok q => q
    | .error _ => f

def map (s : String) : State :=
  if s = "NEW" then .acknowledged
  else if s = "PARTIALLY_FILLED" then .partiallyFilled
  else if s = "FILLED" then .filled
  else if s = "PENDING_CANCEL" then .cancelling
  else if s = "CANCELED" ∨ s = "EXPIRED" then .cancelled
  else if s = "REJECTED" then .rejected
  else .pending

def sideOf (s : String) : Side := if s = "SELL" then .sell else .buy

/-- `executed > 0 ? quote / executed : 0` -/
def averagePrice (executed quote : ℚ) : ℚ := if 0 < executed then quote / executed else 0

def fromRest (now : TimePoint) (v : Json) : Except String Snapshot := do
  let symbol ← v.value Json.getString "symbol" ""
  let clientOrderId ← v.value Json.getString "clientOrderId" ""
  let exchangeOrderId ← v.value Json.getInt64 "orderId" 0
  let side ← v.value Json.getString "side" "BUY"
  let executedQuantity := parse v "executedQty" 0
  let cumulativeQuoteQuantity := parse v "cummulativeQuoteQty" 0
  let status ← v.value Json.getString "status" ""
  return {
    symbol, clientOrderId, exchangeOrderId, executedQuantity, cumulativeQuoteQuantity
    side := sideOf side
    state := map status
    requestedQuantity := parse v "origQty" 0
    averageFillPrice := averagePrice executedQuantity cumulativeQuoteQuantity
    updatedAt := now }

/-! ## Reconciliation -/

/-- `for (v : open) orders_[s.client_order_id] = from_rest(v)` -/
def refill (now : TimePoint) : List Json → Table → Table × Except String Unit
  | [], t => (t, .ok ())
  | v :: vs, t =>
    match fromRest now v with
    | .error what => (t, .error what)
    | .ok s => refill now vs (t.insert s.clientOrderId s)

/-- `reply` is what `open_orders()` returned or threw. -/
def reconcileStartup (m : OrderManager) (reply : Except String Json) (now : TimePoint) : Outcome Unit :=
  match reply with
  | .error what => { manager := m, result := .error what }
  | .ok (.array vs) =>
    match refill now vs ∅ with
    | (orders, .ok _) => { manager := { m with orders, reconciled := true }, result := .ok () }
    | (orders, .error what) => { manager := { m with orders }, result := .error what }
  | .ok _ => { manager := m, result := .error "Invalid open-orders reconciliation response" }

/-! ## Submission -/

def pendingSnapshot (r : Request) (now : TimePoint) : Snapshot :=
  { symbol := r.symbol, clientOrderId := r.clientOrderId, side := r.side
    requestedQuantity := r.quantity, state := .pending, updatedAt := now }

/-- The checks and the insertion; the result is the snapshot to publish next. -/
def submitBegin (m : OrderManager) (r : Request) (now : TimePoint) : Outcome Snapshot :=
  if !m.reconciled then
    { manager := m, result := .error "Orders cannot be submitted before startup reconciliation" }
  else if m.killSwitch then
    { manager := m, result := .error "Kill switch is active" }
  else if r.quantity ≤ 0 ∨ r.symbol = "" ∨ r.clientOrderId = "" then
    { manager := m, result := .error "Invalid order request" }
  else if (m.orders.lookup r.clientOrderId).isSome then
    { manager := m, result := .error "Duplicate client order id" }
  else
    { manager := m.put r.clientOrderId (pendingSnapshot r now), result := .ok (pendingSnapshot r now) }

/-- The insertion alone, under the lock. -/
def insertEntry (m : OrderManager) (r : Request) (now : TimePoint) : Outcome Snapshot :=
  if (m.orders.lookup r.clientOrderId).isSome then
    { manager := m, result := .error "Duplicate client order id" }
  else
    { manager := m.put r.clientOrderId (pendingSnapshot r now), result := .ok (pendingSnapshot r now) }

/-- `submitBegin` is its checks, each of which another thread can come after,
and the insertion. -/
theorem submitBegin_eq (m : OrderManager) (r : Request) (now : TimePoint) : submitBegin m r now =
    if !m.reconciled then
      { manager := m, result := .error "Orders cannot be submitted before startup reconciliation" }
    else if m.killSwitch then { manager := m, result := .error "Kill switch is active" }
    else if r.quantity ≤ 0 ∨ r.symbol = "" ∨ r.clientOrderId = "" then
      { manager := m, result := .error "Invalid order request" }
    else insertEntry m r now := rfl

/-- The locked part of the `try` block, up to the handler call. -/
def acknowledge (m : OrderManager) (id : String) (ack : Json) (now : TimePoint) :
    Except String Snapshot :=
  match m.orders.lookup id with
  | none => .error missingEntry
  | some c =>
    match ack.value Json.getInt64 "orderId" 0 with
    | .error what => .error what
    | .ok i => .ok { c with exchangeOrderId := i, state := .acknowledged, updatedAt := now }

/-- The `catch` block; `published` is what the `try` block published. -/
def rejectSubmission (h : UpdateHandler) (m : OrderManager) (published : List Snapshot) (id : String)
    (what : String) (now : TimePoint) : Outcome Snapshot :=
  match m.orders.lookup id with
  | none => { manager := m, published, result := .error missingEntry }
  | some c =>
    let c := { c with state := .rejected, rejectionReason := what, updatedAt := now }
    { manager := m.put id c, published := published ++ [c], result := (h c).map fun _ => c }

/-- `reply` is what `place_market_order` returned or threw. -/
def submitSettle (h : UpdateHandler) (m : OrderManager) (id : String) (reply : Except String Json)
    (now : TimePoint) : Outcome Snapshot :=
  match reply with
  | .error what => rejectSubmission h m [] id what now
  | .ok ack =>
    match acknowledge m id ack now with
    | .error what => rejectSubmission h m [] id what now
    | .ok c =>
      match h c with
      | .ok _ => { manager := m.put id c, published := [c], result := .ok c }
      | .error what => rejectSubmission h (m.put id c) [c] id what now

/-- `submit_market` with no other thread in between. -/
def submitMarket (h : UpdateHandler) (m : OrderManager) (r : Request) (reply : Except String Json)
    (now : TimePoint) : Outcome Snapshot :=
  let inserted := submitBegin m r now
  match inserted.result with
  | .error what => { inserted with result := .error what }
  | .ok p =>
    match h p with
    | .error what => { inserted with published := [p], result := .error what }
    | .ok _ =>
      let settled := submitSettle h inserted.manager r.clientOrderId reply now
      { settled with published := p :: settled.published }

/-- The placement is acknowledged: a readable answer, and a handler that returns. -/
def acknowledges (h : UpdateHandler) (m : OrderManager) (id : String) (reply : Except String Json)
    (now : TimePoint) : Bool :=
  match reply with
  | .error _ => false
  | .ok ack =>
    match acknowledge m id ack now with
    | .error _ => false
    | .ok c => (h c).isOk

/-! ## Cancellation and the kill switch -/

/-- The locked part of `cancel`; the flag says that a cancel request follows. -/
def cancelEntry (m : OrderManager) (id : String) (now : TimePoint) : Outcome (Snapshot × Bool) :=
  match m.orders.lookup id with
  | none => { manager := m, result := .error "Unknown client order id" }
  | some c =>
    if c.state.Terminal then { manager := m, result := .ok (c, false) }
    else
      let c := { c with state := .cancelling, updatedAt := now }
      { manager := m.put id c, result := .ok (c, true) }

/-- `reply` is what `cancel_order` returned or threw. -/
def cancel (h : UpdateHandler) (m : OrderManager) (id : String) (reply : Except String Json)
    (now : TimePoint) : Outcome Snapshot :=
  let marked := cancelEntry m id now
  match marked.result with
  | .error what => { marked with result := .error what }
  | .ok (c, false) => { marked with result := .ok c }
  | .ok (c, true) =>
    match h c with
    | .error what => { marked with published := [c], result := .error what }
    | .ok _ => { marked with published := [c], result := reply.map fun _ => c }

def live (s : State) : Bool :=
  decide (s = .pending) || decide (s = .acknowledged) || decide (s = .partiallyFilled)

/-- The orders the kill switch cancels. -/
def killScan (m : OrderManager) : List String :=
  (m.orders.entries.filter fun entry => live entry.2.state).map fun entry => entry.2.clientOrderId

/-- `replies` answers the cancel request of each order. -/
def activateKillSwitch (h : UpdateHandler) (m : OrderManager) (replies : String → Except String Json)
    (now : TimePoint) : OrderManager :=
  let m := { m with killSwitch := true }
  (killScan m).foldl (fun m id => (cancel h m id (replies id) now).manager) m

def clearKillSwitchForReconciledResume (m : OrderManager) : Outcome Unit :=
  if !m.reconciled then
    { manager := m, result := .error "Cannot resume before reconciliation" }
  else if m.orders.entries.any fun entry => live entry.2.state || decide (entry.2.state = .cancelling) then
    { manager := m, result := .error "Cannot resume with unresolved orders" }
  else { manager := { m with killSwitch := false }, result := .ok () }

/-! ## The user data stream -/

/-- The assignments of one executionReport to the entry of its order; a field
of a wrong type throws after the assignments before it. -/
def applyReport (e : Json) (id : String) (c : Snapshot) : Snapshot × Except String Unit :=
  match e.value Json.getString "s" c.symbol with
  | .error what => (c, .error what)
  | .ok symbol =>
  let c := { c with symbol, clientOrderId := id }
  match e.value Json.getInt64 "i" c.exchangeOrderId with
  | .error what => (c, .error what)
  | .ok exchangeOrderId =>
  let c := { c with exchangeOrderId }
  match e.value Json.getString "S" "BUY" with
  | .error what => (c, .error what)
  | .ok side =>
  let requestedQuantity := parse e "q" c.requestedQuantity
  let executedQuantity := parse e "z" c.executedQuantity
  let cumulativeQuoteQuantity := parse e "Z" c.cumulativeQuoteQuantity
  let c := { c with
    side := sideOf side
    requestedQuantity, executedQuantity, cumulativeQuoteQuantity
    averageFillPrice := averagePrice executedQuantity cumulativeQuoteQuantity }
  match e.value Json.getString "X" "" with
  | .error what => (c, .error what)
  | .ok status =>
  let c := { c with state := map status }
  match e.value Json.getString "r" "" with
  | .error what => (c, .error what)
  | .ok rejectionReason =>
  let c := { c with rejectionReason }
  match e.value Json.getInt64 "E" 0 with
  | .error what => (c, .error what)
  | .ok ms => ({ c with updatedAt := milliseconds ms }, .ok ())

/-- The locked part; the result is the snapshot to publish next, if any. -/
def onUserDataEvent (m : OrderManager) (e : Json) : Outcome (Option Snapshot) :=
  match e.value Json.getString "e" "" with
  | .error what => { manager := m, result := .error what }
  | .ok kind =>
  if kind ≠ "executionReport" then { manager := m, result := .ok none }
  else
  match e.value Json.getString "c" "" with
  | .error what => { manager := m, result := .error what }
  | .ok id =>
  if id = "" then { manager := m, result := .ok none }
  else
  match applyReport e id ((m.orders.lookup id).getD {}) with
  | (c, .error what) => { manager := m.put id c, result := .error what }
  | (c, .ok _) => { manager := m.put id c, result := .ok (some c) }

/-! ## What each operation can do to the table -/

theorem acknowledge_eq_ok {m : OrderManager} {id : String} {ack : Json} {now : TimePoint}
    {c' : Snapshot} (h : acknowledge m id ack now = .ok c') :
    ∃ c, m.orders.lookup id = some c ∧ c'.state = .acknowledged ∧ c'.clientOrderId = c.clientOrderId := by
  unfold acknowledge at h
  split at h
  · cases h
  · next c hc =>
    split at h
    · cases h
    · cases h
      exact ⟨c, hc, rfl, rfl⟩

theorem submitBegin_manager (m : OrderManager) (r : Request) (now : TimePoint) :
    (submitBegin m r now).manager = m ∨
      (m.orders.lookup r.clientOrderId = none ∧
        (submitBegin m r now).manager = m.put r.clientOrderId (pendingSnapshot r now)) := by
  unfold submitBegin
  repeat' split
  all_goals first | exact Or.inl rfl | skip
  next h => exact Or.inr ⟨by simpa using h, rfl⟩

theorem submitBegin_result {m : OrderManager} {r : Request} {now : TimePoint} {p : Snapshot}
    (h : (submitBegin m r now).result = .ok p) : p = pendingSnapshot r now := by
  unfold submitBegin at h
  repeat' split at h
  all_goals first | (cases h; done) | skip
  simpa using h.symm

theorem rejectSubmission_of_entry {m : OrderManager} {id : String} {c : Snapshot}
    (hc : m.orders.lookup id = some c) (h : UpdateHandler) (published : List Snapshot) (what : String)
    (now : TimePoint) : (rejectSubmission h m published id what now).manager =
      m.put id { c with state := .rejected, rejectionReason := what, updatedAt := now } := by
  simp only [rejectSubmission, hc]

/-- The REST outcome writes Acknowledged or Rejected over whatever the entry held. -/
theorem submitSettle_of_entry {m : OrderManager} {id : String} {c : Snapshot}
    (hc : m.orders.lookup id = some c) (h : UpdateHandler) (reply : Except String Json)
    (now : TimePoint) :
    ∃ c', (submitSettle h m id reply now).manager = m.put id c' ∧
      c'.state = if acknowledges h m id reply now then .acknowledged else .rejected := by
  cases reply with
  | error what => exact ⟨_, rejectSubmission_of_entry hc h [] what now, rfl⟩
  | ok ack =>
    cases hk : acknowledge m id ack now with
    | error what =>
      refine ⟨{ c with state := .rejected, rejectionReason := what, updatedAt := now }, ?_, ?_⟩
      · simp only [submitSettle, hk]
        exact rejectSubmission_of_entry hc h [] what now
      · simp [acknowledges, hk]
    | ok c₁ =>
      obtain ⟨-, -, hs, -⟩ := acknowledge_eq_ok hk
      cases hh : h c₁ with
      | ok _ => exact ⟨c₁, by simp only [submitSettle, hk, hh],
          by simp [acknowledges, hk, hh, hs, Except.isOk, Except.toBool]⟩
      | error what =>
        refine ⟨{ c₁ with state := .rejected, rejectionReason := what, updatedAt := now }, ?_, ?_⟩
        · simp only [submitSettle, hk, hh]
          rw [rejectSubmission_of_entry (put_lookup m id c₁)]
          simp only [put, AList.insert_insert]
        · simp [acknowledges, hk, hh, Except.isOk, Except.toBool]

theorem submitSettle_of_missing {m : OrderManager} {id : String} (hc : m.orders.lookup id = none)
    (h : UpdateHandler) (reply : Except String Json) (now : TimePoint) :
    (submitSettle h m id reply now).manager = m := by
  unfold submitSettle
  split
  · simp only [rejectSubmission, hc]
  · have hk : ∀ ack, acknowledge m id ack now = .error missingEntry := by
      intro ack; simp only [acknowledge, hc]
    simp only [hk, rejectSubmission, hc]

theorem rejectSubmission_published {h : UpdateHandler} {m : OrderManager} {published : List Snapshot}
    {id what : String} {now : TimePoint} (hp : ∀ u ∈ published, u.state ≠ .filled) :
    ∀ u ∈ (rejectSubmission h m published id what now).published, u.state ≠ .filled := by
  unfold rejectSubmission
  split
  · exact hp
  · intro u hu
    rcases List.mem_append.mp hu with hu | hu
    · exact hp u hu
    · rw [List.mem_singleton.mp hu]; simp

/-- Nothing a submission publishes is a fill. -/
theorem submitSettle_published (h : UpdateHandler) (m : OrderManager) (id : String)
    (reply : Except String Json) (now : TimePoint) :
    ∀ u ∈ (submitSettle h m id reply now).published, u.state ≠ .filled := by
  unfold submitSettle
  split
  · exact rejectSubmission_published (by simp)
  · split
    · exact rejectSubmission_published (by simp)
    · next c hk =>
      obtain ⟨-, -, hs, -⟩ := acknowledge_eq_ok hk
      split
      · simp [hs]
      · exact rejectSubmission_published (by simp [hs])

theorem cancelEntry_manager (m : OrderManager) (id : String) (now : TimePoint) :
    (cancelEntry m id now).manager = m ∨
      ∃ c, m.orders.lookup id = some c ∧ ¬ c.state.Terminal ∧
        (cancelEntry m id now).manager = m.put id { c with state := .cancelling, updatedAt := now } := by
  unfold cancelEntry
  split
  · exact Or.inl rfl
  · next c hc =>
    split
    · exact Or.inl rfl
    · next ht => exact Or.inr ⟨c, hc, ht, rfl⟩

theorem clearKillSwitch_off {m : OrderManager} {u : Unit}
    (h : (clearKillSwitchForReconciledResume m).result = .ok u) :
    (clearKillSwitchForReconciledResume m).manager = { m with killSwitch := false } := by
  unfold clearKillSwitchForReconciledResume at h ⊢
  repeat' split at h
  all_goals first | (cases h; done) | skip
  next h1 h2 => rw [if_neg h1, if_neg h2]

theorem cancelEntry_published {m : OrderManager} {id : String} {now : TimePoint} {c : Snapshot}
    (h : (cancelEntry m id now).result = .ok (c, true)) : c.state = .cancelling := by
  unfold cancelEntry at h
  split at h
  · cases h
  · split at h
    · simp at h
    · cases h; rfl

end OrderManager

end Sentum.Order
