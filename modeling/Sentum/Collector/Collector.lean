import Sentum.Lib.BoundedQueue
import Sentum.Lib.Run
import Sentum.Market.MarketDataStore
import Sentum.Market.MarketEvent

/-!
# The collector

The websocket thread puts every closed candle into a bounded queue, the writer
thread takes batches of them to the database, and `stop` lowers `running` and
joins both.  The websocket thread reads `running` when a message comes in, and
does not look again before it enqueues.
-/

namespace Sentum

open Market Run

structure KlineBatchItem where
  symbol : String
  kline : Kline
deriving DecidableEq

namespace Collector

/-- What the parser and `resolve_symbol` make of a message. -/
structure Message where
  id : Nat
  symbol : String
  kline : Kline
  closed : Bool
deriving DecidableEq

def Message.item (m : Message) : KlineBatchItem := { symbol := m.symbol, kline := m.kline }

def Message.event (m : Message) : MarketEvent :=
  { symbol := m.symbol, timestamp := milliseconds m.kline.timestamp, price := m.kline.close,
    close := m.kline.close, volume := m.kline.volume, closed := true }

/-! ## Threads -/

/-- `ws_thread` -/
inductive Socket where
  /-- in `websocket.run()` -/
  | idle
  /-- the message handler is called; no message: the parser or `resolve_symbol` refuses it -/
  | received (m : Option Message)
  | upserting (m : Message)
  | publishing (m : Message)
  | enqueuing (m : Message)
  /-- past `websocket.run()`, or an exception is caught -/
  | leaving
  | returned
deriving DecidableEq

/-- `writer_thread`, in `writer_loop` -/
inductive Writer where
  | testing
  /-- has found `running` false -/
  | testingQueue
  | filling
  | waiting
  | saving
  | returned
deriving DecidableEq

inductive Stopper where
  | idle
  | closing
  | joinSocket
  | joinWriter
  | finished
deriving DecidableEq

def queueCapacity : Nat := 8192

def batchSize : Nat := 256

end Collector

open Collector in
structure Collector where
  running : Bool := true
  socket : Socket := .idle
  writer : Writer := .testing
  stopper : Stopper := .idle
  queue : BoundedQueue KlineBatchItem queueCapacity := {}
  batch : List KlineBatchItem := []
  enqueued : Nat := 0
  dropped : Nat := 0
  /-- what `try_enqueue` has answered true to -/
  accepted : List KlineBatchItem := []
  /-- the batches that `save_kline_batch` has been called with -/
  saved : List (List KlineBatchItem) := []
  /-- the calls of `MarketDataStore::upsert` -/
  upserted : List (Nat × Kline) := []
  /-- the calls of `MarketEventBus::publish` -/
  published : List MarketEvent := []

namespace Collector

inductive Act where
  | receive (m : Option Message)
  | socket
  /-- `websocket.run()` returns, or something in it throws -/
  | socketEnds
  | writer
  | stop

def tryEnqueue (c : Collector) (item : KlineBatchItem) : Collector × Bool :=
  match c.queue.tryPush item with
  | none => ({ c with dropped := c.dropped + 1 }, false)
  | some queue => ({ c with queue, enqueued := c.enqueued + 1, accepted := c.accepted ++ [item] }, true)

theorem tryEnqueue_accepted (c : Collector) (item : KlineBatchItem) :
    (c.tryEnqueue item).1.accepted = c.accepted ++ if (c.tryEnqueue item).2 then [item] else [] := by
  unfold tryEnqueue
  split
  · exact (List.append_nil c.accepted).symm
  · rfl

/-- The next step of the websocket thread. -/
def socketStep (c : Collector) : Collector :=
  match c.socket with
  | .received (some m) => { c with socket := if c.running then .upserting m else .idle }
  | .received none => { c with socket := .idle }
  | .upserting m =>
    { c with upserted := c.upserted ++ [(m.id, m.kline)], socket := if m.closed then .publishing m else .idle }
  | .publishing m => { c with published := c.published ++ [m.event], socket := .enqueuing m }
  | .enqueuing m => { (c.tryEnqueue m.item).1 with socket := .idle }
  | .leaving => { c with running := false, socket := .returned }
  | .idle | .returned => c

/-- The next step of `writer_loop`. -/
def writerStep (c : Collector) : Collector :=
  match c.writer with
  | .testing => { c with writer := if c.running then .filling else .testingQueue }
  | .testingQueue => { c with writer := if c.queue.items.isEmpty then .returned else .filling }
  | .filling =>
    match if c.batch.length < batchSize then c.queue.tryPop else none with
    | some (item, queue) => { c with queue, batch := c.batch ++ [item] }
    | none => { c with writer := if c.batch.isEmpty then .waiting else .saving }
  -- `wait_for` ends when it is notified and after 100 ms
  | .waiting => { c with writer := .testing }
  | .saving => { c with saved := c.saved ++ [c.batch], batch := [], writer := .testing }
  | .returned => c

/-- The next step of `stop`. -/
def stopStep (c : Collector) : Collector :=
  match c.stopper with
  | .idle => { c with running := false, stopper := .closing }
  | .closing => { c with stopper := .joinSocket }
  | .joinSocket => if c.socket = .returned then { c with stopper := .joinWriter } else c
  | .joinWriter => if c.writer = .returned then { c with stopper := .finished } else c
  | .finished => c

def step (c : Collector) : Act → Collector
  | .receive m => if c.socket = .idle then { c with socket := .received m } else c
  | .socket => c.socketStep
  | .socketEnds =>
    match c.socket with
    | .idle | .upserting _ | .publishing _ => { c with socket := .leaving }
    | _ => c
  | .writer => c.writerStep
  | .stop => c.stopStep

end Collector

end Sentum
