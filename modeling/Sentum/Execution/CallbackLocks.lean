import Sentum.Execution.TestnetStrategyRuntime
import Sentum.Lib.Locks
import Sentum.Order.ConfirmedPositionLedger
import Sentum.Order.OrderManager

/-!
# Callbacks and their locks

The calls of `TestnetStrategyRuntime` over `LiveOrderSession` and
`OrderManager`, each on one thread, with the mutexes it takes on the way.  The
update handler calls back into the manager when an event cannot be saved: it
kills the session, which cancels orders, which publishes updates.  `depth`
bounds how often handlers are nested in this way.

`Outside` is what the call does not decide: which saves fail, the clock, the
exchange's answers, and the manager as other threads have left it by the time
a placement is answered.
-/

namespace Sentum.Execution

open Sentum Sentum.Order OrderManager Locks Act

inductive Mutex where
  /-- of `TestnetStrategyRuntime` -/
  | runtime
  | orderManager
  /-- `handler_mutex_` of the session -/
  | handler
  | ledger
  /-- of `OrderEventRepository` -/
  | events
  /-- of `StatusReporter` -/
  | status
  /-- of `DashboardState` -/
  | dashboard
deriving DecidableEq

/-- The objects of one testnet process, and what the call has had saved. -/
structure Process where
  runtime : TestnetStrategyRuntime
  manager : OrderManager
  ledger : ConfirmedPositionLedger := {}
  started : Bool := true
  readyFlag : Bool := true
  saved : List Snapshot := []

def Process.ready (s : Process) : Bool := s.readyFlag && !s.manager.killSwitch

structure Outside where
  /-- whether a snapshot is saved, given how often the call has saved it before -/
  saves : Snapshot → Nat → Bool
  now : TimePoint
  cancelReply : String → Except String Json
  placeReply : Except String Json
  /-- the manager when the placement is answered -/
  atOutcome : OrderManager

/-- Code of one thread of the process. -/
abbrev Code (α : Type) := Act Mutex Process α

namespace Callbacks

section
variable (o : Outside)

/-- One `set_status`, or several in a row. -/
def setStatus : Code Unit := do
  locked .status (pure ())
  locked .dashboard (pure ())

/-- `events_.save` -/
def save (u : Snapshot) : Code Unit :=
  locked .events (atomic fun s =>
    (if o.saves u (s.saved.count u) then .ok () else .error "Failed to persist order event",
      { s with saved := s.saved ++ [u] }))

/-- The locked part of `on_order_update`. -/
def applyUpdate (u : Snapshot) : Code Unit :=
  locked .runtime do
    modify fun s => { s with runtime := s.runtime.onOrderUpdate u }
    if u.exchangeConfirmedFill then setStatus else pure ()

/-- `TestnetStrategyRuntime::on_order_update` -/
def onOrderUpdate (kill : Code Unit) (u : Snapshot) : Code Unit := do
  catching (save o u) fun _ => do
    kill
    setStatus
  setStatus
  applyUpdate u

/-- `ConfirmedPositionLedger::on_order_update` -/
def updateLedger (u : Snapshot) : Code Unit :=
  if u.exchangeConfirmedFill then locked .ledger (modify fun s => { s with ledger := s.ledger.onOrderUpdate u })
  else pure ()

/-- The handler that `LiveOrderSession::start` installs. -/
def sessionHandler (external : Snapshot → Code Unit) (u : Snapshot) : Code Unit := do
  updateLedger u
  locked .handler (pure ())
  external u

/-- `OrderManager::publish`: `handler_` is copied under the lock and called without it. -/
def publish (h : Snapshot → Code Unit) (u : Snapshot) : Code Unit := do
  locked .orderManager (pure ())
  h u

/-- The locked part of `cancel`. -/
def markEntry (id : String) : Code (Snapshot × Bool) :=
  locked .orderManager (atomic fun s =>
    ((s.manager.cancelEntry id o.now).result, { s with manager := (s.manager.cancelEntry id o.now).manager }))

def cancel (h : Snapshot → Code Unit) (id : String) : Code Snapshot := do
  let marked ← markEntry o id
  if marked.2 then
    publish h marked.1
    atomic fun s => ((o.cancelReply id).map fun _ => marked.1, s)
  else pure marked.1

/-- The loop of `activate_kill_switch`. -/
def cancelAll (h : Snapshot → Code Unit) : List String → Code Unit
  | [] => pure ()
  | id :: ids => do
    catching (ignore (cancel o h id)) (fun _ => pure ())
    cancelAll h ids

def activateKillSwitch (h : Snapshot → Code Unit) : Code Unit := do
  modify fun s => { s with manager := { s.manager with killSwitch := true } }
  let ids ← locked .orderManager (read fun s => s.manager.killScan)
  cancelAll o h ids

/-- `venue_->kill()` -/
def kill (h : Snapshot → Code Unit) : Code Unit := do
  activateKillSwitch o h
  modify fun s => { s with readyFlag := false }

/-- The update handler; `depth` handlers may be nested in it. -/
def updateHandler : Nat → Snapshot → Code Unit
  | 0, _ => cutOff
  | depth + 1, u => sessionHandler (onOrderUpdate o (kill o (updateHandler depth))) u

/-- The checks of `submit_market`. -/
def checkRequest (r : Request) : Code Unit := atomic fun s =>
  (if !s.manager.reconciled then .error "Orders cannot be submitted before startup reconciliation"
   else if s.manager.killSwitch then .error "Kill switch is active"
   else if r.quantity ≤ 0 ∨ r.symbol = "" ∨ r.clientOrderId = "" then .error "Invalid order request"
   else .ok (), s)

/-- The entry that the `try` block writes. -/
def writeAcknowledged (id : String) (ack : Json) : Code Snapshot := atomic fun s =>
  match s.manager.acknowledge id ack o.now with
  | .error what => (.error what, s)
  | .ok c => (.ok c, { s with manager := s.manager.put id c })

/-- The entry that the `catch` block writes. -/
def writeRejected (id what : String) : Code Snapshot := atomic fun s =>
  match s.manager.orders.lookup id with
  | none => (.error missingEntry, s)
  | some c =>
    (.ok { c with state := .rejected, rejectionReason := what, updatedAt := o.now },
      { s with manager :=
          s.manager.put id { c with state := .rejected, rejectionReason := what, updatedAt := o.now } })

/-- `publish_unlocked`: an entry is written and its handler called under the lock. -/
def publishUnlocked (h : Snapshot → Code Unit) (write : Code Snapshot) : Code Snapshot :=
  locked .orderManager do
    let c ← write
    h c
    pure c

/-- `place_market_order` -/
def askExchange : Code Json := atomic fun s => (o.placeReply, { s with manager := o.atOutcome })

/-- The placement and its outcome. -/
def place (h : Snapshot → Code Unit) (id : String) : Code Snapshot :=
  catching
    (do
      let ack ← askExchange o
      publishUnlocked h (writeAcknowledged o id ack))
    (fun what => publishUnlocked h (writeRejected o id what))

/-- The insertion of the Pending entry. -/
def insert (r : Request) : Code Snapshot :=
  locked .orderManager (atomic fun s =>
    ((s.manager.insertEntry r o.now).result, { s with manager := (s.manager.insertEntry r o.now).manager }))

def submitMarket (h : Snapshot → Code Unit) (r : Request) : Code Snapshot := do
  checkRequest r
  let p ← insert o r
  publish h p
  place o h r.clientOrderId

/-- The checks of the venue and of the session. -/
def checkReady : Code Unit := atomic fun s =>
  (if !s.ready then .error "Testnet execution venue is not reconciled and ready"
   else if !s.started then .error "Live order session is not reconciled and ready"
   else .ok (), s)

/-- `venue_->submit`, through the session. -/
def venueSubmit (h : Snapshot → Code Unit) (r : Request) : Code Snapshot := do
  checkReady
  submitMarket o h r

/-- The locked part of `on_price`. -/
def decideOrder (h : Snapshot → Code Unit) (e : PriceEvent) : Code Unit := do
  let request ← read fun s => (s.runtime.onPrice s.ready e).2
  modify fun s => { s with runtime := (s.runtime.onPrice s.ready e).1 }
  -- the signal and the decision of an entry
  setStatus
  match request with
  | none => pure ()
  | some r => ignore (venueSubmit o h r)

/-- `TestnetStrategyRuntime::on_price` -/
def onPrice (h : Snapshot → Code Unit) (e : PriceEvent) : Code Unit := do
  let goesOn ← read fun s => s.runtime.running && s.ready && decide (0 < e.price)
  if goesOn then
    setStatus
    locked .runtime (decideOrder o h e)
  else pure ()

/-- The calls of the process. -/
inductive Entry where
  | onPrice (e : PriceEvent)
  | submitMarket (r : Request)
  | cancel (id : String)
  | activateKillSwitch
  | onUserDataEvent (e : Json)
  /-- the update handler itself -/
  | update (u : Snapshot)

/-- The locked part of `on_user_data_event`. -/
def readEvent (e : Json) : Code (Option Snapshot) :=
  locked .orderManager (atomic fun s =>
    ((s.manager.onUserDataEvent e).result, { s with manager := (s.manager.onUserDataEvent e).manager }))

def onUserDataEvent (h : Snapshot → Code Unit) (e : Json) : Code Unit := do
  let update ← readEvent e
  match update with
  | none => pure ()
  | some u => publish h u

/-- A call from a thread that holds no mutex. -/
def run (depth : Nat) (s : Process) (c : Entry) : Result Mutex Unit :=
  let s := { s with saved := [] }
  let h := updateHandler o depth
  match c with
  | .onPrice e => (onPrice o h e [] s).1
  | .submitMarket r => (ignore (submitMarket o h r) [] s).1
  | .cancel id => (ignore (cancel o h id) [] s).1
  | .activateKillSwitch => (activateKillSwitch o h [] s).1
  | .onUserDataEvent e => (onUserDataEvent h e [] s).1
  | .update u => (h u [] s).1

end

end Callbacks

end Sentum.Execution
