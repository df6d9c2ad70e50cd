import Mathlib.Data.Fintype.Defs
import Sentum.Lib.Run
import Sentum.Trader.TradeEngine

/-!
# The execution engine

The main loop, the scanner and a caller of `stop` share the trader, its
thread, the accounted profit and the paper account; no lock guards the first
three.  The thread that delivers market events runs the handler of a new best
symbol.  Each thread is cut where another one can come in between, and
`Routine` is what is left of its function.  The trader thread runs the
`TradeEngine` that `trader` pointed to when the thread began.

What C++ leaves undefined (a null or destroyed engine is used, a thread that
somebody else has joined is joined) and `std::terminate` end the run: the
state is marked and goes nowhere from there.
-/

namespace Sentum.Core

open Sentum.Market Sentum.Strategy Sentum.Risk Sentum.Trader

structure PaperAccount where
  equity : ℚ
  realizedProfit : ℚ := 0
  closedTrades : Nat := 0

/-- `apply_realized_profit`; the state file is written after all three. -/
def PaperAccount.applyRealizedProfit (a : PaperAccount) (delta : ℚ) : PaperAccount :=
  { equity := a.equity + delta, realizedProfit := a.realizedProfit + delta, closedTrades := a.closedTrades + 1 }

/-! ## Threads -/

inductive Thread where
  | main | scanner | stopper | market
deriving DecidableEq

instance : Fintype Thread := ⟨{.main, .scanner, .stopper, .market}, fun t => by cases t <;> decide⟩

/-- Who called `stop_trader`, with what it goes on to do. -/
inductive StopCaller where
  | control (generation : Nat) (symbol : String)
  | stop

/-- Who called `start_trader_for`. -/
inductive StartCaller where
  | control (generation : Nat)
  | scanner

/-- What is left of a thread's function; every section is named after what it does first. -/
inductive Routine where
  | returned
  -- run_main_loop
  | loop
  | poll
  | pollTotal
  | pollDelta (total : ℚ)
  | pollApply (total delta : ℚ)
  | pollStore (total : ℚ)
  -- apply_runtime_control
  | control
  | controlTrader (generation : Nat)
  | controlPosition (generation : Nat)
  | controlMode (generation : Nat)
  | controlManual (generation : Nat) (auto : Bool)
  | controlStrategy (generation : Nat) (auto : Bool) (manual : String)
  | controlSymbol (generation : Nat) (auto : Bool) (manual : String)
  | controlStop (generation : Nat) (symbol : String)
  | controlled (generation : Nat)
  -- monitor_scanner
  | scan
  | scanWait
  | scanRunning
  | scanMode
  | scanManual
  | scanned (symbol : String)
  | scanStore (symbol : String)
  -- the handler of a new best symbol
  | topChanged (symbol : String)
  | topActive (symbol : String)
  | topPending (symbol : String)
  -- start_trader_for
  | start (c : StartCaller) (symbol : String)
  | startJoin (c : StartCaller) (symbol : String)
  | startLoad (c : StartCaller) (symbol : String)
  | startMake (c : StartCaller) (symbol : String) (risk : RiskConfig) (document : Json) (strategy : IStrategy)
  | startAccount (c : StartCaller)
  | startActive (c : StartCaller)
  | startThread (c : StartCaller)
  -- stop_trader
  | stopTrader (c : StopCaller)
  | stopTotal (c : StopCaller)
  | stopDelta (c : StopCaller) (final : ℚ)
  | stopApply (c : StopCaller) (delta : ℚ)
  | stopAccount (c : StopCaller)
  | stopEngine (c : StopCaller)
  | stopJoinable (c : StopCaller)
  | stopJoin (c : StopCaller)
  | stopReset (c : StopCaller)
  -- stop
  | stop
  | joinMain
  | joinScanner

namespace Routine

def isReturned : Routine → Bool
  | returned => true
  | _ => false

/-- The thread holds `scanner_signal_mutex`. -/
def holdsSignal : Routine → Bool
  | scanRunning | scanMode | scanManual => true
  | _ => false

/-- After `start_trader_for`. -/
def started : StartCaller → Routine
  | .control generation => controlled generation
  | .scanner => scan

/-- After `stop_trader`. -/
def stopped : StopCaller → Routine
  | .control generation symbol =>
    if symbol = "" then controlled generation else start (.control generation) symbol
  | .stop => joinMain

end Routine

/-- A `TradeEngine` object, with its flag `running`. -/
structure Trader where
  engine : TradeEngine
  /-- what its strategy was made from -/
  document : Json
  running : Bool := false

namespace Trader

def stopVenue (t : Trader) : Trader := { t with engine := { t.engine with venue := t.engine.venue.stop } }

/-- `TradeEngine::stop` -/
def stop (t : Trader) : Trader := if t.running then { t.stopVenue with running := false } else t

end Trader

/-- `trader_thread`: not joinable, about to call `run`, at the head of the loop
of `run`, past the head and to take an event, at its end. -/
inductive TraderThread where
  | none
  | spawned
  | looping (i : Nat)
  | taking (i : Nat)
  | ended
deriving DecidableEq

namespace TraderThread

def joinable : TraderThread → Bool
  | none => false
  | _ => true

/-- The thread is in `run` of trader `i`. -/
def runs (i : Nat) : TraderThread → Bool
  | looping j | taking j => decide (j = i)
  | _ => false

end TraderThread

/-! ## The engine -/

/-- `RuntimeControl`, as far as the execution engine reads it. -/
structure RuntimeSettings where
  strategy : Json
  autoSymbol : Bool := true
  manualSymbol : String := ""
  generation : Nat := 0

structure ExecutionEngine where
  running : Bool := true
  traderActive : Bool := false
  threads : Thread → Routine
  mainJoinable : Bool := true
  scannerJoinable : Bool := true
  traderThread : TraderThread := .none
  /-- all engines that have been made -/
  traders : List Trader := []
  /-- the one `trader` points to -/
  trader : Option Nat := none
  account : PaperAccount
  accountedProfit : ℚ := 0
  appliedGeneration : Nat := 0
  currentSymbol : String := ""
  pendingSymbol : String := ""
  settings : RuntimeSettings
  control : RuntimeControl := {}
  /-- undefined behaviour or `std::terminate` -/
  undefined : Bool := false

inductive Command where
  | setStrategy (value : Json)
  | setAutoSymbol (value : Bool)
  | setManualSymbol (value : String)
  | pauseEntries (value : Bool)
  | requestManualClose

/-- What a section finds outside. -/
structure Outside where
  /-- the configuration file, as parsed -/
  riskFile : Except String Json
  /-- `save_locked` does not throw -/
  stored : Bool := true

inductive Action where
  /-- thread `t` runs its next section -/
  | advance (t : Thread) (o : Outside)
  | callStop
  | command (c : Command)
  /-- the scanner calls its handler of a new best symbol -/
  | topChanged (symbol : String)
  /-- the trader thread calls `run`, which gets as far as its loop or throws before it -/
  | traderRun (starts : Bool)
  | traderLoop
  /-- the trader thread takes an event -/
  | traderEvent (clockNow systemNow : TimePoint) (saves : Bool) (event : MarketEvent)
  /-- the trader thread wakes up with nothing to take -/
  | traderWake

namespace ExecutionEngine

/-- Threads and state when `start()` has returned. -/
def started (account : PaperAccount) (settings : RuntimeSettings) (pendingSymbol : String) : ExecutionEngine :=
  { threads := fun
      | .main => .loop
      | .scanner => .scan
      | .stopper | .market => .returned
    account, settings, pendingSymbol, appliedGeneration := settings.generation }

def goto (s : ExecutionEngine) (t : Thread) (r : Routine) : ExecutionEngine :=
  { s with threads := Function.update s.threads t r }

def undefine (s : ExecutionEngine) : ExecutionEngine := { s with undefined := true }

/-- An exception leaves the thread's function; main loop and scanner catch it there. -/
def threw (s : ExecutionEngine) (t : Thread) : ExecutionEngine :=
  { s with running := s.running && decide (t = Thread.stopper) }.goto t .returned

def current (s : ExecutionEngine) : Option Trader := s.trader.bind fun i => s.traders[i]?

def positionOpen (s : ExecutionEngine) : Bool :=
  match s.current with
  | none => false
  | some tr => tr.engine.position.isOpen

/-- The trader thread is in `run` of the current engine. -/
def onCurrent (s : ExecutionEngine) : Bool := s.trader.any fun i => s.traderThread.runs i

/-- `trader_thread.join()` -/
def joinTrader (s : ExecutionEngine) (t : Thread) (next : Routine) : ExecutionEngine :=
  match s.traderThread with
  | .none => s.undefine
  | .ended => { s with traderThread := .none }.goto t next
  | _ => s

/-- `apply_realized_profit`, and on to `next`. -/
def applyProfit (s : ExecutionEngine) (t : Thread) (delta : ℚ) (stored : Bool) (next : Routine) :
    ExecutionEngine :=
  let s := { s with account := s.account.applyRealizedProfit delta }
  if stored then s.goto t next else s.threw t

/-- The symbol `apply_runtime_control` restarts with. -/
def restartSymbol (s : ExecutionEngine) (auto : Bool) (manual : String) : String :=
  if !auto && decide (manual ≠ "") then manual else s.currentSymbol

/-- The next section of thread `t`, which has `r` left to do. -/
def advance (s : ExecutionEngine) (t : Thread) (o : Outside) : Routine → ExecutionEngine
  | .returned => s
  | .loop => if s.running then s.goto t .control else s.goto t .returned
  | .poll => if s.trader.isSome then s.goto t .pollTotal else s.goto t .loop
  | .pollTotal =>
    match s.current with
    | none => s.undefine
    | some tr => s.goto t (.pollDelta tr.engine.totalProfit)
  | .pollDelta total =>
    let delta := total - s.accountedProfit
    if delta ≠ 0 then s.goto t (.pollApply total delta) else s.goto t .loop
  | .pollApply total delta => s.applyProfit t delta o.stored (.pollStore total)
  | .pollStore total => { s with accountedProfit := total }.goto t .loop
  | .control =>
    if s.settings.generation = s.appliedGeneration then s.goto t .poll
    else s.goto t (.controlTrader s.settings.generation)
  | .controlTrader generation =>
    if s.trader.isSome then s.goto t (.controlPosition generation) else s.goto t (.controlMode generation)
  | .controlPosition generation =>
    match s.current with
    | none => s.undefine
    | some tr => if tr.engine.position.isOpen then s.goto t .poll else s.goto t (.controlMode generation)
  | .controlMode generation => s.goto t (.controlManual generation s.settings.autoSymbol)
  | .controlManual generation auto => s.goto t (.controlStrategy generation auto s.settings.manualSymbol)
  | .controlStrategy generation auto manual =>
    match s.settings.strategy.value Json.getString "type" "momentum" with
    | .error _ => s.threw t
    | .ok _ => s.goto t (.controlSymbol generation auto manual)
  | .controlSymbol generation auto manual => s.goto t (.controlStop generation (s.restartSymbol auto manual))
  | .controlStop generation symbol =>
    let c := StopCaller.control generation symbol
    if s.trader.isSome then s.goto t (.stopTrader c) else s.goto t (.stopped c)
  | .controlled generation => { s with appliedGeneration := generation }.goto t .poll
  | .scan => if s.running then s.goto t .scanWait else s.goto t .returned
  | .scanWait =>
    if s.running && decide (s.pendingSymbol = "") && s.settings.autoSymbol then s else s.goto t .scanRunning
  | .scanRunning => if s.running then s.goto t .scanMode else s.goto t .returned
  | .scanMode =>
    if s.settings.autoSymbol then { s with pendingSymbol := "" }.goto t (.scanned s.pendingSymbol)
    else s.goto t .scanManual
  | .scanManual => { s with pendingSymbol := "" }.goto t (.scanned s.settings.manualSymbol)
  | .scanned symbol =>
    if decide (symbol = "") || s.traderActive then s.goto t .scan else s.goto t (.scanStore symbol)
  | .scanStore symbol => { s with currentSymbol := symbol }.goto t (.start .scanner symbol)
  | .topChanged symbol => if s.settings.autoSymbol then s.goto t (.topActive symbol) else s.goto t .returned
  | .topActive symbol => if s.traderActive then s.goto t .returned else s.goto t (.topPending symbol)
  | .topPending symbol =>
    if (s.threads .scanner).holdsSignal then s else { s with pendingSymbol := symbol }.goto t .returned
  | .start c symbol =>
    if s.traderThread.joinable then s.goto t (.startJoin c symbol) else s.goto t (.startLoad c symbol)
  | .startJoin c symbol => s.joinTrader t (.startLoad c symbol)
  | .startLoad c symbol =>
    match o.riskFile.bind loadRiskConfig with
    | .error _ => s.threw t
    | .ok risk =>
      match StrategyFactory.create s.settings.strategy with
      | .error _ => s.threw t
      | .ok strategy =>
        let risk := { risk with maxTotalCapital := s.account.equity }
        s.goto t (.startMake c symbol risk s.settings.strategy strategy)
  | .startMake c symbol risk document strategy =>
    -- the engine before is destroyed
    if s.onCurrent then s.undefine
    else
      let made : Trader := { engine := .init symbol true risk strategy, document }
      { s with traders := s.traders ++ [made], trader := some s.traders.length }.goto t (.startAccount c)
  | .startAccount c => { s with accountedProfit := 0 }.goto t (.startActive c)
  | .startActive c => { s with traderActive := true }.goto t (.startThread c)
  | .startThread c =>
    if s.traderThread.joinable then s.undefine else { s with traderThread := .spawned }.goto t (.started c)
  | .stopTrader c => if s.trader.isSome then s.goto t (.stopTotal c) else s.goto t (.stopJoinable c)
  | .stopTotal c =>
    match s.current with
    | none => s.undefine
    | some tr => s.goto t (.stopDelta c tr.engine.totalProfit)
  | .stopDelta c final =>
    let delta := final - s.accountedProfit
    if delta ≠ 0 then s.goto t (.stopApply c delta) else s.goto t (.stopAccount c)
  | .stopApply c delta => s.applyProfit t delta o.stored (.stopAccount c)
  | .stopAccount c => { s with accountedProfit := 0 }.goto t (.stopEngine c)
  | .stopEngine c =>
    match s.trader, s.current with
    | some i, some tr => { s with traders := s.traders.set i tr.stop }.goto t (.stopJoinable c)
    | _, _ => s.undefine
  | .stopJoinable c => if s.traderThread.joinable then s.goto t (.stopJoin c) else s.goto t (.stopReset c)
  | .stopJoin c => s.joinTrader t (.stopReset c)
  | .stopReset c =>
    if s.onCurrent then s.undefine else { s with trader := none, traderActive := false }.goto t (.stopped c)
  | .stop =>
    let idle := !s.running && !s.mainJoinable && !s.scannerJoinable && !s.traderThread.joinable
    let s := { s with running := false }
    s.goto t (if idle then .returned else .stopTrader .stop)
  | .joinMain =>
    if !s.mainJoinable then s.goto t .joinScanner
    else if (s.threads .main).isReturned then { s with mainJoinable := false }.goto t .joinScanner
    else s
  | .joinScanner =>
    if !s.scannerJoinable then s.goto t .returned
    else if (s.threads .scanner).isReturned then { s with scannerJoinable := false }.goto t .returned
    else s

def commanded (s : ExecutionEngine) : Command → ExecutionEngine
  | .setStrategy value =>
    { s with settings := { s.settings with strategy := value, generation := s.settings.generation + 1 } }
  | .setAutoSymbol value =>
    { s with settings := { s.settings with autoSymbol := value, generation := s.settings.generation + 1 } }
  | .setManualSymbol value =>
    { s with
      settings := { s.settings with
        manualSymbol := value, autoSymbol := false, generation := s.settings.generation + 1 } }
  | .pauseEntries value => { s with control := { s.control with entriesPaused := value } }
  | .requestManualClose => { s with control := { s.control with manualClose := true } }

/-- The trader thread's function ends. -/
def traderEnds (s : ExecutionEngine) : ExecutionEngine := { s with traderThread := .ended, traderActive := false }

def surroundings (s : ExecutionEngine) (clockNow systemNow : TimePoint) (saves : Bool) : Surroundings :=
  { clockNow, systemNow, control := s.control, saves }

def step (s : ExecutionEngine) (a : Action) : ExecutionEngine :=
  if s.undefined then s
  else
    match a with
    | .advance t o => s.advance t o (s.threads t)
    | .callStop => if (s.threads .stopper).isReturned then s.goto .stopper .stop else s
    | .command c => s.commanded c
    | .topChanged symbol => if (s.threads .market).isReturned then s.goto .market (.topChanged symbol) else s
    | .traderRun starts =>
      if s.traderThread ≠ .spawned then s
      else
        match s.trader, s.current with
        | some i, some tr =>
          if tr.running then s.traderEnds
          else if starts then
            { s with traders := s.traders.set i { tr with running := true }, traderThread := .looping i }
          else { s with traders := s.traders.set i tr.stopVenue }.traderEnds
        | _, _ => s.undefine
    | .traderLoop =>
      match s.traderThread with
      | .looping i =>
        match s.traders[i]? with
        | none => s
        | some tr =>
          if tr.running then { s with traderThread := .taking i }
          else { s with traders := s.traders.set i tr.stopVenue }.traderEnds
      | _ => s
    | .traderEvent clockNow systemNow saves event =>
      match s.traderThread with
      | .taking i =>
        match s.traders[i]? with
        | none => s
        | some tr =>
          let processed := tr.engine.processEvent (s.surroundings clockNow systemNow saves) event
          let s := { s with control := processed.control }
          let tr := { tr with engine := processed.engine }
          match processed.result with
          | .ok _ => { s with traders := s.traders.set i tr, traderThread := .looping i }
          | .error _ => { s with traders := s.traders.set i tr.stop }.traderEnds
      | _ => s
    | .traderWake =>
      match s.traderThread with
      | .taking i =>
        match s.traders[i]? with
        | none => s
        | some tr => if tr.running then s else { s with traders := s.traders.set i tr.stopVenue }.traderEnds
      | _ => s

/-- All threads have stopped. -/
def allStopped (s : ExecutionEngine) : Bool :=
  !s.undefined && decide (∀ t, (s.threads t).isReturned = true) &&
    (decide (s.traderThread = .none) || decide (s.traderThread = .ended))

/-- The net profit of all trades all engines have closed. -/
def closedProfit (s : ExecutionEngine) : ℚ :=
  (s.traders.map fun tr => (tr.engine.completed.map TradePosition.netProfit).sum).sum

/-- What the current engine has earned since the account was last brought up to date. -/
def unaccounted (s : ExecutionEngine) : ℚ :=
  match s.current with
  | none => 0
  | some tr => tr.engine.totalProfit - s.accountedProfit

/-! ## Runs to look at -/

def outside : Outside := { riskFile := .ok shippedDocument }

/-- The next `n` sections of a thread. -/
def sections (t : Thread) (n : Nat) : List Action := List.replicate n (.advance t outside)

def tick (event : MarketEvent) : Action := .traderEvent event.timestamp event.timestamp true event

/-- A paper account of 1000, and BTCUSDT to start with. -/
def paper : ExecutionEngine := started { equity := 1000 } { strategy := quickMomentumDocument } "BTCUSDT"

/-- A trader for BTCUSDT runs when a symbol is set by hand, and is replaced by one for that symbol. -/
def manualRun (symbol : String) : List Action :=
  sections .scanner 12 ++ [.traderRun true, .traderLoop, .command (.setManualSymbol symbol)] ++
    sections .main 16 ++ .traderWake :: sections .main 9

end ExecutionEngine

end Sentum.Core
