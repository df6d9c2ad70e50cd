import Mathlib.Tactic.NormNum
import Sentum.Order.LedgerRuns

/-!
# The live order session

The session, the exchange behind it and the user data stream between them.
Each call of a member function is a routine of some thread, cut where another
thread can come in between; `Routine` is what is left of it.  An action moves
one thread, the stream or the exchange, so a run is any interleaving of them.

The exchange sends an executionReport for all that happens to an order, and
the report reaches the session only if the stream is connected at that time.
What is in flight when a stream goes down is lost.
-/

namespace Sentum.Order

open Sentum OrderManager

/-! ## The exchange -/

inductive ExchangeStatus where
  | new | partiallyFilled | filled | canceled | expired | rejected
deriving DecidableEq

namespace ExchangeStatus

/-- The text of `X` and `status`. -/
def text : ExchangeStatus → String
  | new => "NEW"
  | partiallyFilled => "PARTIALLY_FILLED"
  | filled => "FILLED"
  | canceled => "CANCELED"
  | expired => "EXPIRED"
  | rejected => "REJECTED"

def isOpen : ExchangeStatus → Bool
  | new | partiallyFilled => true
  | _ => false

theorem text_eq_filled {x : ExchangeStatus} : x.text = "FILLED" ↔ x = filled := by
  cases x <;> decide

end ExchangeStatus

structure ExchangeOrder where
  request : Request
  executed : ℚ := 0
  /-- quote spent or received -/
  quote : ℚ := 0
  status : ExchangeStatus := .new
  /-- the session's own, or open when the session started -/
  tracked : Bool := false
  quantity_pos : 0 < request.quantity := by norm_num
  executed_nonneg : 0 ≤ executed := by norm_num

namespace ExchangeOrder

/-- The order after one execution. -/
def execute (o : ExchangeOrder) (quantity price : ℚ) (h : 0 < quantity) : ExchangeOrder :=
  { o with
    executed := o.executed + quantity
    quote := o.quote + quantity * price
    status := if o.executed + quantity = o.request.quantity then .filled else .partiallyFilled
    executed_nonneg := add_nonneg o.executed_nonneg h.le }

/-- An order that is open at startup is one of the session's from then on. -/
def track (o : ExchangeOrder) : ExchangeOrder := { o with tracked := o.tracked || o.status.isOpen }

def sideText : Side → String
  | .buy => "BUY"
  | .sell => "SELL"

/-- The order's element of the open-orders answer; its id is its place in the book. -/
def rest (o : ExchangeOrder) (i : Nat) : Json :=
  .object [("symbol", .string o.request.symbol), ("orderId", .integer (i + 1)),
    ("clientOrderId", .string o.request.clientOrderId), ("origQty", .float o.request.quantity),
    ("executedQty", .float o.executed), ("cummulativeQuoteQty", .float o.quote),
    ("status", .string o.status.text), ("side", .string (sideText o.request.side))]

/-- `e` is a report of the order as it stands. -/
def spelledBy (o : ExchangeOrder) (i : Nat) (e : Json) : Bool :=
  match readReport e with
  | none => false
  | some r => decide (r.clientOrderId = o.request.clientOrderId ∧ r.symbol = o.request.symbol ∧
      r.exchangeOrderId = i + 1 ∧ r.side = o.request.side ∧ r.requested = o.request.quantity ∧
      r.executed = o.executed ∧ r.status = o.status.text)

end ExchangeOrder

/-- `open_orders()` -/
def openOrders (book : List ExchangeOrder) : Json :=
  .array ((book.zipIdx.filter fun oi => oi.1.status.isOpen).map fun oi => oi.1.rest oi.2)

/-! ## The session -/

/-- A `BinanceUserDataStream`: made, `run` on its thread, the open handler has
run, its close or fail handler has run or `run` has thrown, stopped. -/
inductive StreamStatus where
  | made | connecting | connected | down | stopped
deriving DecidableEq

inductive Caller where
  | start | resume | supervisor
deriving DecidableEq

/-- Who called `reconcile_startup`. -/
inductive Reconciler where
  | recoverStream (c : Caller)
  | resume
deriving DecidableEq

/-- Who called `activate_kill_switch`. -/
inductive Killer where
  | kill | supervisor | stop
deriving DecidableEq

/-- What is left of a call; every section is named after what it does first. -/
inductive Routine where
  | returned
  | start
  | submit (r : Request)
  | submitMarket (r : Request)
  | kill
  | stop
  | resume (confirmed : Bool)
  | keepalive
  -- reconcile_startup
  | fetchOrders (k : Reconciler)
  | replaceOrders (k : Reconciler) (reply : Json)
  -- recover_stream
  | recoverStream (c : Caller)
  | lockStream (c : Caller)
  | stopStream (c : Caller)
  | createListenKey (c : Caller)
  | makeStream (c : Caller)
  | startStream (c : Caller)
  | readKillSwitch (c : Caller)
  | storeReady (c : Caller) (ready : Bool)
  -- resume_after_reconcile
  | clearKillSwitch
  | resumed
  | resumeFailed
  -- activate_kill_switch
  | killStore (k : Killer)
  | killScan (k : Killer)
  | killCancels (k : Killer)
  | killed
  -- supervisor_loop
  | sendKeepalive
  | keepaliveFailed
  -- stop
  | storeStopped
  | joinSupervisor
  | lockStop
  | stopLast

namespace Routine

/-- The calls another component can make. -/
def isCall : Routine → Bool
  | start | submit _ | kill | stop | resume _ | keepalive => true
  | _ => false

def isReturned : Routine → Bool
  | returned => true
  | _ => false

/-- After `recover_stream` has returned. -/
def recovered : Caller → Routine
  | .start => returned
  | .resume => clearKillSwitch
  | .supervisor => returned

/-- After `recover_stream` has thrown. -/
def threw : Caller → Routine
  | .start => returned
  | .resume => resumeFailed
  | .supervisor => returned

def afterReconcile : Reconciler → Routine
  | .recoverStream c => lockStream c
  | .resume => recoverStream .resume

def reconcileThrew : Reconciler → Routine
  | .recoverStream c => threw c
  | .resume => resumeFailed

def afterKill : Killer → Routine
  | .kill => killed
  | .supervisor => recoverStream .supervisor
  | .stop => storeStopped

end Routine

/-- The supervisor is thread 0. -/
def supervisorThread : Nat := 0

structure LiveOrderSession where
  /-- manager and ledger -/
  orders : OrderSystem := {}
  stream : Option StreamStatus := none
  /-- the thread that holds `stream_mutex_` -/
  streamMutex : Option Nat := none
  started : Bool := false
  /-- `ready_` -/
  readyFlag : Bool := false
  supervisorRunning : Bool := false
  threads : Nat → Routine := fun _ => .returned
  /-- sent by the exchange, not yet read -/
  inFlight : List Json := []
  /-- all orders the exchange has accepted -/
  book : List ExchangeOrder := []

inductive SessionAction where
  /-- thread `t` calls a member function -/
  | call (t : Nat) (r : Routine)
  /-- thread `t` runs its next section; `rest` says whether its REST call throws -/
  | advance (t : Nat) (rest : Except String Unit) (now : TimePoint)
  /-- a further step of a submission or cancellation -/
  | orders (a : OrderAction)
  | opened
  | lost
  | deliver
  | publish
  /-- the exchange accepts submission `n` and reports it as `e` -/
  | accept (n : Nat) (e : Json)
  /-- the exchange accepts an order of someone else -/
  | foreign (r : Request) (e : Json)
  | execute (i : Nat) (quantity price : ℚ) (e : Json)
  /-- order `i` ends without (further) execution -/
  | finish (i : Nat) (status : ExchangeStatus) (e : Json)

namespace LiveOrderSession

def ready (s : LiveOrderSession) : Bool := s.readyFlag && !s.orders.manager.killSwitch

def connected (s : LiveOrderSession) : Bool := decide (s.stream = some .connected)

/-- Thread `t` goes on with `r`. -/
def goto (s : LiveOrderSession) (t : Nat) (r : Routine) : LiveOrderSession :=
  { s with threads := Function.update s.threads t r }

/-- No executionReport is in flight. -/
def quiet (s : LiveOrderSession) : Bool := s.inFlight.isEmpty && s.orders.update.isNone

/-- `stream_->stop()`, which joins the stream's thread; it is not called while
the thread has an update in hand. -/
def dropStream (s : LiveOrderSession) : LiveOrderSession :=
  { s with stream := s.stream.map fun _ => .stopped, inFlight := [] }

def beginStream : StreamStatus → StreamStatus
  | .made => .connecting
  | status => status

/-- The next section of thread `t`, which has `r` left to do. -/
def advance (s : LiveOrderSession) (t : Nat) (rest : Except String Unit) (now : TimePoint) :
    Routine → LiveOrderSession
  | .returned => s
  | .start =>
    if s.started then s.goto t .returned
    else { s with started := true }.goto t (.recoverStream Caller.start)
  | .submit r =>
    if !s.started || !s.ready then s.goto t .returned else s.goto t (.submitMarket r)
  | .submitMarket r => { s with orders := s.orders.step (.submitBegin r now) }.goto t .returned
  | .kill => s.goto t (.killStore .kill)
  | .stop =>
    if s.started then { s with started := false }.goto t (.killStore .stop) else s.goto t .returned
  | .resume confirmed =>
    if !confirmed || !s.started then s.goto t .returned else s.goto t (.fetchOrders .resume)
  | .fetchOrders k =>
    match rest with
    | .error _ => s.goto t (.reconcileThrew k)
    | .ok _ =>
      -- what is open when `start` looks is one of the session's orders
      let book := if k = .recoverStream Caller.start then s.book.map ExchangeOrder.track else s.book
      { s with book }.goto t (.replaceOrders k (openOrders s.book))
  | .replaceOrders k reply =>
    { s with orders := s.orders.step (.reconcile (.ok reply) now) }.goto t (.afterReconcile k)
  | .recoverStream c => { s with readyFlag := false }.goto t (.fetchOrders (.recoverStream c))
  | .lockStream c =>
    if s.streamMutex.isSome then s else { s with streamMutex := some t }.goto t (.stopStream c)
  | .stopStream c =>
    if s.orders.update.isSome then s else s.dropStream.goto t (.createListenKey c)
  | .createListenKey c =>
    match rest with
    | .error _ => { s with streamMutex := none }.goto t (.threw c)
    | .ok _ => s.goto t (.makeStream c)
  | .makeStream c => { s with stream := some .made }.goto t (.startStream c)
  | .startStream c => { s with stream := s.stream.map beginStream }.goto t (.readKillSwitch c)
  | .readKillSwitch c => s.goto t (.storeReady c !s.orders.manager.killSwitch)
  | .storeReady c ready =>
    { s with
      readyFlag := ready
      streamMutex := none
      supervisorRunning := s.supervisorRunning || decide (c = Caller.start) }.goto t (.recovered c)
  | .clearKillSwitch =>
    let cleared := s.orders.manager.clearKillSwitchForReconciledResume
    match cleared.result with
    | .ok _ => { s with orders := { s.orders with manager := cleared.manager } }.goto t .resumed
    | .error _ => s.goto t .resumeFailed
  | .resumed => { s with readyFlag := true }.goto t .returned
  | .resumeFailed => { s with readyFlag := false }.goto t .returned
  | .killStore k => { s with orders := s.orders.step .killStore }.goto t (.killScan k)
  | .killScan k => { s with orders := s.orders.step .killScan }.goto t (.killCancels k)
  | .killCancels k => if s.orders.killQueue.isEmpty then s.goto t (.afterKill k) else s
  | .killed => { s with readyFlag := false }.goto t .returned
  | .keepalive =>
    if s.streamMutex.isSome then s else { s with streamMutex := some t }.goto t .sendKeepalive
  | .sendKeepalive =>
    match rest with
    | .ok _ => { s with streamMutex := none }.goto t .returned
    | .error _ => { s with streamMutex := none }.goto t .keepaliveFailed
  | .keepaliveFailed => { s with readyFlag := false }.goto t (.killStore .supervisor)
  | .storeStopped => { s with readyFlag := false, supervisorRunning := false }.goto t .joinSupervisor
  | .joinSupervisor => if (s.threads supervisorThread).isReturned then s.goto t .lockStop else s
  | .lockStop =>
    if s.streamMutex.isSome then s else { s with streamMutex := some t }.goto t .stopLast
  | .stopLast =>
    if s.orders.update.isSome then s else { s.dropStream with streamMutex := none }.goto t .returned

/-- The steps of a submission or cancellation that no section above takes. -/
def ownStep : OrderAction → Bool
  | .submitPublish _ _ | .submitSettle _ _ _ _ | .cancelEntry _ _ | .cancelPublish _ | .killCancel _ _ =>
    true
  | _ => false

/-- The exchange reports `e`. -/
def send (s : LiveOrderSession) (e : Json) : LiveOrderSession :=
  if s.connected then { s with inFlight := s.inFlight ++ [e] } else s

/-- A client order id is taken while an order that carries it is open. -/
def taken (s : LiveOrderSession) (id : String) : Bool :=
  s.book.any fun o => o.status.isOpen && decide (o.request.clientOrderId = id)

/-- A new order of the book. -/
def enter (s : LiveOrderSession) (r : Request) (tracked : Bool) (e : Json) : LiveOrderSession :=
  if h : 0 < r.quantity then
    let o : ExchangeOrder := { request := r, tracked, quantity_pos := h }
    if !s.taken r.clientOrderId && o.spelledBy s.book.length e then
      { s with book := s.book ++ [o] }.send e
    else s
  else s

/-- Order `i` becomes `o`. -/
def amend (s : LiveOrderSession) (i : Nat) (o : ExchangeOrder) (e : Json) : LiveOrderSession :=
  if o.spelledBy i e then { s with book := s.book.set i o }.send e else s

/-- The supervisor calls nothing but its keepalive, and only while it runs. -/
def mayCall (s : LiveOrderSession) (t : Nat) (r : Routine) : Bool :=
  (s.threads t).isReturned &&
    match r with
    | .keepalive => decide (t = supervisorThread) && s.supervisorRunning
    | r => r.isCall && decide (t ≠ supervisorThread)

def step (s : LiveOrderSession) : SessionAction → LiveOrderSession
  | .call t r => if s.mayCall t r then s.goto t r else s
  | .advance t rest now => s.advance t rest now (s.threads t)
  | .orders a => if ownStep a then { s with orders := s.orders.step a } else s
  | .opened => if s.stream = some .connecting then { s with stream := some .connected } else s
  | .lost =>
    if s.stream = some .connecting ∨ s.stream = some .connected then
      { s with stream := some .down, inFlight := [] }
    else s
  | .deliver =>
    if s.orders.update.isSome then s
    else
      match s.inFlight with
      | [] => s
      | e :: rest => { s with inFlight := rest, orders := s.orders.step (.report e) }
  | .publish => { s with orders := s.orders.step .reportPublish }
  | .accept n e =>
    match s.orders.submissions[n]? with
    | none => s
    | some sub => if sub.placing then s.enter sub.request true e else s
  | .foreign r e => s.enter r false e
  | .execute i quantity price e =>
    match s.book[i]? with
    | none => s
    | some o =>
      if h : o.status.isOpen ∧ 0 < quantity ∧ o.executed + quantity ≤ o.request.quantity then
        s.amend i (o.execute quantity price h.2.1) e
      else s
  | .finish i status e =>
    match s.book[i]? with
    | none => s
    | some o =>
      if o.status.isOpen ∧ !status.isOpen ∧ status ≠ .filled then s.amend i { o with status } e else s

section
variable (s : LiveOrderSession)

@[simp] theorem goto_book (t : Nat) (r : Routine) : (s.goto t r).book = s.book := rfl

/-- The exchange changes nothing of the session but what is in flight. -/
structure SameSession (s' : LiveOrderSession) : Prop where
  orders : s'.orders = s.orders
  stream : s'.stream = s.stream
  readyFlag : s'.readyFlag = s.readyFlag

theorem send_sameSession (e : Json) : SameSession s (s.send e) := by
  unfold send
  split <;> exact ⟨rfl, rfl, rfl⟩

theorem enter_sameSession (r : Request) (tracked : Bool) (e : Json) :
    SameSession s (s.enter r tracked e) := by
  unfold enter
  split
  · next h =>
    simp only
    split
    · obtain ⟨ho, hs, hr⟩ := send_sameSession
        { s with book := s.book ++ [{ request := r, tracked, quantity_pos := h }] } e
      exact ⟨ho, hs, hr⟩
    · exact ⟨rfl, rfl, rfl⟩
  · exact ⟨rfl, rfl, rfl⟩

theorem amend_sameSession (i : Nat) (o : ExchangeOrder) (e : Json) : SameSession s (s.amend i o e) := by
  unfold amend
  split
  · obtain ⟨ho, hs, hr⟩ := send_sameSession { s with book := s.book.set i o } e
    exact ⟨ho, hs, hr⟩
  · exact ⟨rfl, rfl, rfl⟩

end

/-- Before `start`, with what the exchange holds at that time. -/
def fresh (book : List ExchangeOrder) : LiveOrderSession :=
  { book := book.map fun o => { o with tracked := false } }

/-! ## Runs -/

def done : Except String Unit := .ok ()

/-- `start()`, with every REST call answered. -/
def startRun (t : Nat) : List SessionAction :=
  .call t .start :: List.replicate 11 (.advance t done 0)

/-- The order of the examples. -/
def btcOrder : Request := { symbol := "BTCUSDT", quantity := 1, clientOrderId := "sentum-1" }

def report (executed : ℚ) (status : String) : Json :=
  Report.message { clientOrderId := "sentum-1", symbol := "BTCUSDT", exchangeOrderId := 1, side := .buy, requested := 1
                   executed, quote := 100 * executed, status, reason := "NONE", eventTime := 0 }

/-- Thread `t` submits the order; the exchange accepts it and answers. -/
def submitRun (t : Nat) : List SessionAction :=
  [.call t (.submit btcOrder), .advance t done 0, .advance t done 0, .orders (.submitPublish 0 fun _ => .ok ()),
   .accept 0 (report 0 "NEW"), .orders (.submitSettle 0 (fun _ => .ok ()) (.ok (.object [("orderId", .integer 1)])) 0)]

/-- Thread `t` resumes after reconciliation. -/
def resumeRun (t : Nat) : List SessionAction :=
  .call t (.resume true) :: List.replicate 15 (.advance t done 0)

end LiveOrderSession

end Sentum.Order
