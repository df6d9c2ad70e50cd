import Sentum.Core.ExecutionEngine
import Sentum.Lib.WaitingRuns

/-!
# Wake-ups at shutdown

Three loops wait on a condition variable with no timeout: `TradeEngine::run` for
a price, `AsyncLogger::run` for a message and `monitor_scanner` for a symbol.
Each predicate reads `running`, and whoever stops the loop lowers that flag and
notifies without taking the mutex, though everyone who adds data takes it.

    Timely run → no wake-up is lost                                 (wakeups_kept)
    the stop comes between a test and the block → the thread sleeps  (missedRun_lost)
    woken in time → the thread returns within five of its steps      (stops_in_time)
-/

namespace Sentum

open Market Run Waiting

/-! ## `TradeEngine::run` -/

namespace Trader.TradeEngine

def maxQueueSize : Nat := 4096

/-- `enqueue_price`, under `queue_mutex`; a price comes with the time it is queued at. -/
def enqueuePrice (symbol : String) (price : ℚ × TimePoint) (queue : List MarketEvent) : List MarketEvent :=
  let event : MarketEvent := { symbol, timestamp := price.2, price := price.1, close := price.1 }
  (if maxQueueSize ≤ queue.length then queue.tail else queue) ++ [event]

/-- `queue_cv`.  A second `stop` returns at once and does not notify; whoever
lowered the flag before it does. -/
def queueWait (symbol : String) : Site (List MarketEvent) (ℚ × TimePoint) Empty where
  goesOn running _ := running
  ready queue := !queue.isEmpty
  take running queue := if !running && queue.isEmpty then (queue, false) else (queue.tail, true)
  put := enqueuePrice symbol
  set := nofun
  lowers := nofun
  throws := true

theorem enqueuePrice_length (symbol : String) (price : ℚ × TimePoint) {queue : List MarketEvent}
    (h : queue.length ≤ maxQueueSize) : (enqueuePrice symbol price queue).length ≤ maxQueueSize := by
  unfold enqueuePrice
  split
  · have hpos : 0 < maxQueueSize := by decide
    simp only [List.length_append, List.length_tail, List.length_singleton]
    omega
  · simp only [List.length_append, List.length_singleton]
    omega

end Trader.TradeEngine

/-! ## `AsyncLogger::run` -/

namespace Utils

structure AsyncLogger where
  messages : List String := []
  /-- the lines of the file -/
  file : List String := []

namespace AsyncLogger

/-- `log`, under `mtx`; a message comes with the formatted time. -/
def log (message : String × String) (l : AsyncLogger) : AsyncLogger :=
  { l with messages := l.messages ++ ["[" ++ message.2 ++ "] " ++ message.1] }

/-- `cv`.  The loop begins again as long as there are messages. -/
def messageWait : Site AsyncLogger (String × String) Empty where
  goesOn running l := running || !l.messages.isEmpty
  ready l := !l.messages.isEmpty
  take _ l := ({ messages := [], file := l.file ++ l.messages }, true)
  put := log
  set := nofun
  lowers := nofun
  throws := false

end AsyncLogger

end Utils

/-! ## `monitor_scanner` -/

namespace Core.ExecutionEngine

/-- What `monitor_scanner` reads under `scanner_signal_mutex`, and the symbol it leaves with. -/
structure Signal where
  pending : String := ""
  auto : Bool := true
  manual : String := ""
  symbol : String := ""

/-- What happens without the mutex. -/
inductive Unguarded where
  | setAutoSymbol (value : Bool)
  | setManualSymbol (value : String)
  /-- the main loop throws, and lowers `running` -/
  | mainThrew

def Signal.unguarded : Unguarded → Signal → Signal
  | .setAutoSymbol value, s => { s with auto := value }
  | .setManualSymbol value, s => { s with manual := value, auto := false }
  | .mainThrew, s => s

/-- `scanner_signal_cv`. -/
def signalWait : Site Signal String Unguarded where
  goesOn running _ := running
  ready s := decide (s.pending ≠ "") || !s.auto
  take running s :=
    if !running then (s, false)
    else if !s.auto then ({ s with pending := "", symbol := s.manual }, true)
    else ({ s with pending := "", symbol := s.pending }, true)
  put symbol s := { s with pending := symbol }
  set := Signal.unguarded
  lowers
    | .mainThrew => true
    | _ => false
  throws := true

def signal (s : ExecutionEngine) : Signal :=
  { pending := s.pendingSymbol, auto := s.settings.autoSymbol, manual := s.settings.manualSymbol }

/-- The engine's own wait is this one. -/
theorem scanWait_signal (s : ExecutionEngine) (t : Thread) (o : Outside) :
    s.advance t o .scanWait = if !s.running || signalWait.ready s.signal then s.goto t .scanRunning else s := by
  cases hrun : s.running <;> cases hauto : s.settings.autoSymbol <;> by_cases hpending : s.pendingSymbol = "" <;>
    simp [advance, signalWait, signal, hrun, hauto, hpending]

/-! ## The three waits -/

/-- **Main result**: each of the three waits keeps its wake-ups as long as no
stop notifies between the thread's test and its block, and only so long. -/
theorem wakeups_kept (symbol : String) :
    KeepsWakeups (Trader.TradeEngine.queueWait symbol) ∧ KeepsWakeups Utils.AsyncLogger.messageWait ∧
      KeepsWakeups signalWait :=
  ⟨keepsWakeups (Trader.TradeEngine.queueWait symbol), keepsWakeups Utils.AsyncLogger.messageWait,
    keepsWakeups signalWait⟩

/-- A thread sleeps, and is stopped; it wakes up and leaves its loop. -/
def wokenRun {μ ν : Type} : List (Act μ ν) :=
  [.waiter, .waiter, .waiter, .waiter, .stop, .stop, .waiter, .waiter, .waiter, .waiter]

theorem wakeups_kept_wokenRun :
    Wakes (Trader.TradeEngine.queueWait "BTCUSDT") [] wokenRun ∧
      Wakes Utils.AsyncLogger.messageWait {} wokenRun ∧ Wakes signalWait {} wokenRun :=
  ⟨((wakeups_kept "BTCUSDT").1 [] wokenRun (by decide)).1,
    ((wakeups_kept "BTCUSDT").2.1 {} wokenRun (by decide)).1,
    ((wakeups_kept "BTCUSDT").2.2 {} wokenRun (by decide)).1⟩

/-- A thread has found nothing to do and has not blocked yet when it is stopped. -/
def missedRun {μ ν : Type} : List (Act μ ν) := [.waiter, .waiter, .waiter, .stop, .stop, .waiter]

theorem missedRun_lost :
    ¬ Wakes (Trader.TradeEngine.queueWait "BTCUSDT") [] missedRun ∧
      ¬ Wakes Utils.AsyncLogger.messageWait {} missedRun ∧ ¬ Wakes signalWait {} missedRun := by
  decide

/-! ## The threads end -/

/-- **A timely stop ends each of the three threads**: once its notification is
out and nothing is added any more, five steps of the thread suffice, however they
are interleaved with the others'. -/
theorem stops_in_time (symbol : String) :
    StopsInTime (Trader.TradeEngine.queueWait symbol) ∧ StopsInTime Utils.AsyncLogger.messageWait ∧
      StopsInTime signalWait := by
  refine ⟨stopsInTime _ ?_, stopsInTime _ ?_, stopsInTime _ ?_⟩
  · exact fun _ _ => rfl
  · exact fun _ _ => rfl
  · exact fun _ _ => rfl

end Core.ExecutionEngine

end Sentum
