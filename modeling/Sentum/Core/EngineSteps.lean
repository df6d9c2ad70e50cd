import Sentum.Core.ExecutionEngine

/-!
# What a section can do

The invariants of the execution engine rest on few facts about one section:
which fields it can change, that a thread stays in its own functions, and
where the generation, the symbol and the strategy document that a thread has
in its hands come from.  `Unchanged` covers all sections but the six that
`Routine.quiet` leaves out.
-/

namespace Sentum.Core

open Sentum.Market Sentum.Strategy Sentum.Risk Sentum.Trader

/-! ## What a thread has in its hands -/

namespace StopCaller

def thread : StopCaller → Thread
  | control _ _ => .main
  | stop => .stopper

def generation? : StopCaller → Option Nat
  | control generation _ => some generation
  | stop => none

def symbol? : StopCaller → Option String
  | control _ symbol => some symbol
  | stop => none

end StopCaller

namespace StartCaller

def thread : StartCaller → Thread
  | control _ => .main
  | scanner => .scanner

def generation? : StartCaller → Option Nat
  | control generation => some generation
  | scanner => none

end StartCaller

namespace Routine

/-- The caller of `stop_trader` the thread is in. -/
def stopCaller? : Routine → Option StopCaller
  | stopTrader c | stopTotal c | stopDelta c _ | stopApply c _ | stopAccount c | stopEngine c | stopJoinable c
  | stopJoin c | stopReset c => some c
  | _ => none

/-- The caller of `start_trader_for` the thread is in. -/
def startCaller? : Routine → Option StartCaller
  | start c _ | startJoin c _ | startLoad c _ | startMake c _ _ _ _ | startAccount c | startActive c
  | startThread c => some c
  | _ => none

/-- The thread whose function it is. -/
def thread? : Routine → Option Thread
  | returned => none
  | loop | poll | pollTotal | pollDelta _ | pollApply _ _ | pollStore _ => some .main
  | control | controlTrader _ | controlPosition _ | controlMode _ | controlManual _ _ | controlStrategy _ _ _
  | controlSymbol _ _ _ | controlStop _ _ | controlled _ => some .main
  | scan | scanWait | scanRunning | scanMode | scanManual | scanned _ | scanStore _ => some .scanner
  | topChanged _ | topActive _ | topPending _ => some .market
  | start c _ | startJoin c _ | startLoad c _ | startMake c _ _ _ _ | startAccount c | startActive c
  | startThread c => some c.thread
  | stopTrader c | stopTotal c | stopDelta c _ | stopApply c _ | stopAccount c | stopEngine c | stopJoinable c
  | stopJoin c | stopReset c => some c.thread
  | stop | joinMain | joinScanner => some .stopper

/-- The generation that `apply_runtime_control` applies. -/
def generation? : Routine → Option Nat
  | controlTrader g | controlPosition g | controlMode g | controlManual g _ | controlStrategy g _ _
  | controlSymbol g _ _ | controlStop g _ | controlled g => some g
  | start c _ | startJoin c _ | startLoad c _ | startMake c _ _ _ _ | startAccount c | startActive c
  | startThread c => c.generation?
  | stopTrader c | stopTotal c | stopDelta c _ | stopApply c _ | stopAccount c | stopEngine c | stopJoinable c
  | stopJoin c | stopReset c => c.generation?
  | _ => none

/-- The symbol the thread goes on to start a trader for. -/
def symbol? : Routine → Option String
  | controlStop _ symbol | scanned symbol | scanStore symbol => some symbol
  | start _ symbol | startJoin _ symbol | startLoad _ symbol | startMake _ symbol _ _ _ => some symbol
  | stopTrader c | stopTotal c | stopDelta c _ | stopApply c _ | stopAccount c | stopEngine c | stopJoinable c
  | stopJoin c | stopReset c => c.symbol?
  | _ => none

/-- The strategy document it has read. -/
def document? : Routine → Option Json
  | startMake _ _ _ document _ => some document
  | _ => none

/-- Sections that leave symbol, engines and applied generation alone. -/
def quiet : Routine → Bool
  | controlled _ | scanStore _ | startMake _ _ _ _ _ | startActive _ | stopEngine _ | stopReset _ => false
  | _ => true

end Routine

/-! ## Where a section leads -/

/-- `Next s r r'`: in state `s`, a thread with `r` left may have `r'` left after its next section. -/
inductive Next (s : ExecutionEngine) : Routine → Routine → Prop
  | returned {r : Routine} : Next s r .returned
  | loop : Next s .loop .control
  | poll : Next s .poll .pollTotal
  | polled : Next s .poll .loop
  | pollTotal {total : ℚ} : Next s .pollTotal (.pollDelta total)
  | pollDelta {total delta : ℚ} : Next s (.pollDelta total) (.pollApply total delta)
  | pollNothing {total : ℚ} : Next s (.pollDelta total) .loop
  | pollApply {total delta : ℚ} : Next s (.pollApply total delta) (.pollStore total)
  | pollStore {total : ℚ} : Next s (.pollStore total) .loop
  | controlNone : Next s .control .poll
  | control (hnew : s.settings.generation ≠ s.appliedGeneration) :
      Next s .control (.controlTrader s.settings.generation)
  | controlTrader {g : Nat} : Next s (.controlTrader g) (.controlPosition g)
  | controlNoTrader {g : Nat} (hnone : s.trader = none) : Next s (.controlTrader g) (.controlMode g)
  | controlDeferred {g : Nat} : Next s (.controlPosition g) .poll
  | controlPosition {g : Nat} (hclosed : s.positionOpen = false) : Next s (.controlPosition g) (.controlMode g)
  | controlMode {g : Nat} : Next s (.controlMode g) (.controlManual g s.settings.autoSymbol)
  | controlManual {g : Nat} {auto : Bool} :
      Next s (.controlManual g auto) (.controlStrategy g auto s.settings.manualSymbol)
  | controlStrategy {g : Nat} {auto : Bool} {manual : String} :
      Next s (.controlStrategy g auto manual) (.controlSymbol g auto manual)
  | controlSymbol {g : Nat} {auto : Bool} {manual : String} :
      Next s (.controlSymbol g auto manual) (.controlStop g (s.restartSymbol auto manual))
  | controlStop {g : Nat} {symbol : String} :
      Next s (.controlStop g symbol) (.stopTrader (.control g symbol))
  | controlNoStop {g : Nat} {symbol : String} (hnone : s.trader = none) :
      Next s (.controlStop g symbol) (.stopped (.control g symbol))
  | controlled {g : Nat} : Next s (.controlled g) .poll
  | scan : Next s .scan .scanWait
  | scanWait : Next s .scanWait .scanRunning
  | scanRunning : Next s .scanRunning .scanMode
  | scanAuto (hauto : s.settings.autoSymbol = true) : Next s .scanMode (.scanned s.pendingSymbol)
  | scanMode (hmanual : s.settings.autoSymbol = false) : Next s .scanMode .scanManual
  | scanManual : Next s .scanManual (.scanned s.settings.manualSymbol)
  | scanNothing {symbol : String} : Next s (.scanned symbol) .scan
  | scanned {symbol : String} (hinactive : s.traderActive = false) : Next s (.scanned symbol) (.scanStore symbol)
  | scanStore {symbol : String} : Next s (.scanStore symbol) (.start .scanner symbol)
  | topChanged {symbol : String} : Next s (.topChanged symbol) (.topActive symbol)
  | topActive {symbol : String} (hinactive : s.traderActive = false) : Next s (.topActive symbol) (.topPending symbol)
  | start {c : StartCaller} {symbol : String} : Next s (.start c symbol) (.startJoin c symbol)
  | startNoJoin {c : StartCaller} {symbol : String} : Next s (.start c symbol) (.startLoad c symbol)
  | startJoin {c : StartCaller} {symbol : String} : Next s (.startJoin c symbol) (.startLoad c symbol)
  | startLoad {c : StartCaller} {symbol : String} {risk : RiskConfig} {strategy : IStrategy} :
      Next s (.startLoad c symbol) (.startMake c symbol risk s.settings.strategy strategy)
  | startMake {c : StartCaller} {symbol : String} {risk : RiskConfig} {document : Json} {strategy : IStrategy} :
      Next s (.startMake c symbol risk document strategy) (.startAccount c)
  | startAccount {c : StartCaller} : Next s (.startAccount c) (.startActive c)
  | startActive {c : StartCaller} : Next s (.startActive c) (.startThread c)
  | startThread {c : StartCaller} : Next s (.startThread c) (.started c)
  | stopTrader {c : StopCaller} : Next s (.stopTrader c) (.stopTotal c)
  | stopNoTrader {c : StopCaller} : Next s (.stopTrader c) (.stopJoinable c)
  | stopTotal {c : StopCaller} {final : ℚ} : Next s (.stopTotal c) (.stopDelta c final)
  | stopDelta {c : StopCaller} {final delta : ℚ} : Next s (.stopDelta c final) (.stopApply c delta)
  | stopNothing {c : StopCaller} {final : ℚ} : Next s (.stopDelta c final) (.stopAccount c)
  | stopApply {c : StopCaller} {delta : ℚ} : Next s (.stopApply c delta) (.stopAccount c)
  | stopAccount {c : StopCaller} : Next s (.stopAccount c) (.stopEngine c)
  | stopEngine {c : StopCaller} : Next s (.stopEngine c) (.stopJoinable c)
  | stopJoinable {c : StopCaller} : Next s (.stopJoinable c) (.stopJoin c)
  | stopNoJoin {c : StopCaller} : Next s (.stopJoinable c) (.stopReset c)
  | stopJoin {c : StopCaller} : Next s (.stopJoin c) (.stopReset c)
  | stopReset {c : StopCaller} : Next s (.stopReset c) (.stopped c)
  | stop : Next s .stop (.stopTrader .stop)
  | joinMain : Next s .joinMain .joinScanner

theorem TraderThread.runs_looping {i j : Nat} (h : (TraderThread.looping i).runs j = true) : i = j := of_decide_eq_true h

theorem TraderThread.runs_taking {thread : TraderThread} {i : Nat} (h : thread = .taking i) : thread.runs i = true := by
  rw [h]
  exact decide_eq_true rfl

/-- The actions of the trader thread. -/
def Action.ofTrader : Action → Bool
  | traderRun _ | traderLoop | traderEvent _ _ _ _ | traderWake => true
  | _ => false

namespace ExecutionEngine

@[simp] theorem goto_threads_self (s : ExecutionEngine) (t : Thread) (r : Routine) : (s.goto t r).threads t = r :=
  Function.update_self _ _ _

theorem goto_threads_ne (s : ExecutionEngine) {t u : Thread} (h : u ≠ t) (r : Routine) :
    (s.goto t r).threads u = s.threads u :=
  Function.update_of_ne h _ _

section
variable {s : ExecutionEngine} {t : Thread} {r : Routine}

/-- What most sections leave alone. -/
structure Unchanged (s s' : ExecutionEngine) : Prop where
  appliedGeneration : s'.appliedGeneration = s.appliedGeneration
  currentSymbol : s'.currentSymbol = s.currentSymbol
  traders : s'.traders = s.traders
  trader : s'.trader = s.trader
  traderActive : s'.traderActive = s.traderActive

theorem unchanged_self : Unchanged s s := ⟨rfl, rfl, rfl, rfl, rfl⟩

theorem unchanged_undefine : Unchanged s s.undefine := ⟨rfl, rfl, rfl, rfl, rfl⟩

/-- The threads after a section of `t` that began with `r`: `t` waits or goes on, the others stay. -/
def Moves (s : ExecutionEngine) (t : Thread) (r : Routine) (s' : ExecutionEngine) : Prop :=
  s'.threads = s.threads ∧ Unchanged s s' ∨ ∃ r', Next s r r' ∧ s'.threads = Function.update s.threads t r'

theorem moves_self : Moves s t r s := .inl ⟨rfl, unchanged_self⟩

theorem moves_goto {s' : ExecutionEngine} {r' : Routine} (h : Next s r r') (hs : s'.threads = s.threads) :
    Moves s t r (s'.goto t r') :=
  .inr ⟨r', h, by rw [← hs]; rfl⟩

theorem moves_threw : Moves s t r (s.threw t) := .inr ⟨.returned, .returned, rfl⟩

theorem moves_undefine : Moves s t r s.undefine := .inl ⟨rfl, unchanged_undefine⟩

theorem moves_joinTrader {r' : Routine} (h : Next s r r') : Moves s t r (s.joinTrader t r') := by
  unfold joinTrader
  cases s.traderThread with
  | none => exact moves_undefine
  | ended => exact moves_goto h rfl
  | _ => exact moves_self

theorem moves_applyProfit {delta : ℚ} {stored : Bool} {r' : Routine} (h : Next s r r') :
    Moves s t r (s.applyProfit t delta stored r') := by
  unfold applyProfit
  cases stored with
  | true => exact moves_goto h rfl
  | false => exact .inr ⟨.returned, .returned, rfl⟩

/-- **Where a section leads.** -/
theorem moves_advance (s : ExecutionEngine) (t : Thread) (o : Outside) (r : Routine) :
    Moves s t r (s.advance t o r) := by
  cases r with
  | returned => exact moves_self
  | loop =>
    simp only [advance]
    split
    · exact moves_goto .loop rfl
    · exact moves_goto .returned rfl
  | poll =>
    simp only [advance]
    split
    · exact moves_goto .poll rfl
    · exact moves_goto .polled rfl
  | pollTotal =>
    simp only [advance]
    split
    · exact moves_undefine
    · exact moves_goto .pollTotal rfl
  | pollDelta total =>
    simp only [advance]
    split
    · exact moves_goto .pollDelta rfl
    · exact moves_goto .pollNothing rfl
  | pollApply total delta => exact moves_applyProfit .pollApply
  | pollStore total => exact moves_goto .pollStore rfl
  | control =>
    simp only [advance]
    split
    · exact moves_goto .controlNone rfl
    · next hnew => exact moves_goto (.control hnew) rfl
  | controlTrader g =>
    simp only [advance]
    split
    · exact moves_goto .controlTrader rfl
    · next hnone => exact moves_goto (.controlNoTrader (Option.not_isSome_iff_eq_none.mp hnone)) rfl
  | controlPosition g =>
    simp only [advance]
    split
    · exact moves_undefine
    · next tr hcur =>
      split
      · exact moves_goto .controlDeferred rfl
      · next hclosed =>
        have hflat : s.positionOpen = false := by
          unfold positionOpen
          rw [hcur]
          exact Bool.eq_false_of_not_eq_true hclosed
        exact moves_goto (.controlPosition hflat) rfl
  | controlMode g => exact moves_goto .controlMode rfl
  | controlManual g auto => exact moves_goto .controlManual rfl
  | controlStrategy g auto manual =>
    simp only [advance]
    split
    · exact moves_threw
    · exact moves_goto .controlStrategy rfl
  | controlSymbol g auto manual => exact moves_goto .controlSymbol rfl
  | controlStop g symbol =>
    simp only [advance]
    split
    · exact moves_goto .controlStop rfl
    · next hnone => exact moves_goto (.controlNoStop (Option.not_isSome_iff_eq_none.mp hnone)) rfl
  | controlled g => exact moves_goto .controlled rfl
  | scan =>
    simp only [advance]
    split
    · exact moves_goto .scan rfl
    · exact moves_goto .returned rfl
  | scanWait =>
    simp only [advance]
    split
    · exact moves_self
    · exact moves_goto .scanWait rfl
  | scanRunning =>
    simp only [advance]
    split
    · exact moves_goto .scanRunning rfl
    · exact moves_goto .returned rfl
  | scanMode =>
    simp only [advance]
    split
    · next hauto => exact moves_goto (.scanAuto hauto) rfl
    · next hmanual => exact moves_goto (.scanMode (Bool.eq_false_of_not_eq_true hmanual)) rfl
  | scanManual => exact moves_goto .scanManual rfl
  | scanned symbol =>
    simp only [advance]
    split
    · exact moves_goto .scanNothing rfl
    · next hgo =>
      have hinactive : s.traderActive = false := by
        simp only [Bool.or_eq_true, not_or, Bool.not_eq_true] at hgo
        exact hgo.2
      exact moves_goto (.scanned hinactive) rfl
  | scanStore symbol => exact moves_goto .scanStore rfl
  | topChanged symbol =>
    simp only [advance]
    split
    · exact moves_goto .topChanged rfl
    · exact moves_goto .returned rfl
  | topActive symbol =>
    simp only [advance]
    split
    · exact moves_goto .returned rfl
    · next hinactive => exact moves_goto (.topActive (Bool.eq_false_of_not_eq_true hinactive)) rfl
  | topPending symbol =>
    simp only [advance]
    split
    · exact moves_self
    · exact moves_goto .returned rfl
  | start c symbol =>
    simp only [advance]
    split
    · exact moves_goto .start rfl
    · exact moves_goto .startNoJoin rfl
  | startJoin c symbol => exact moves_joinTrader .startJoin
  | startLoad c symbol =>
    simp only [advance]
    split
    · exact moves_threw
    · split
      · exact moves_threw
      · exact moves_goto .startLoad rfl
  | startMake c symbol risk document strategy =>
    simp only [advance]
    split
    · exact moves_undefine
    · exact moves_goto .startMake rfl
  | startAccount c => exact moves_goto .startAccount rfl
  | startActive c => exact moves_goto .startActive rfl
  | startThread c =>
    simp only [advance]
    split
    · exact moves_undefine
    · exact moves_goto .startThread rfl
  | stopTrader c =>
    simp only [advance]
    split
    · exact moves_goto .stopTrader rfl
    · exact moves_goto .stopNoTrader rfl
  | stopTotal c =>
    simp only [advance]
    split
    · exact moves_undefine
    · exact moves_goto .stopTotal rfl
  | stopDelta c final =>
    simp only [advance]
    split
    · exact moves_goto .stopDelta rfl
    · exact moves_goto .stopNothing rfl
  | stopApply c delta => exact moves_applyProfit .stopApply
  | stopAccount c => exact moves_goto .stopAccount rfl
  | stopEngine c =>
    simp only [advance]
    split
    · exact moves_goto .stopEngine rfl
    · exact moves_undefine
  | stopJoinable c =>
    simp only [advance]
    split
    · exact moves_goto .stopJoinable rfl
    · exact moves_goto .stopNoJoin rfl
  | stopJoin c => exact moves_joinTrader .stopJoin
  | stopReset c =>
    simp only [advance]
    split
    · exact moves_undefine
    · exact moves_goto .stopReset rfl
  | stop =>
    simp only [advance]
    split
    · exact moves_goto .returned rfl
    · exact moves_goto .stop rfl
  | joinMain =>
    simp only [advance]
    split
    · exact moves_goto .joinMain rfl
    · split
      · exact moves_goto .joinMain rfl
      · exact moves_self
  | joinScanner =>
    simp only [advance]
    split
    · exact moves_goto .returned rfl
    · split
      · exact moves_goto .returned rfl
      · exact moves_self

theorem Moves.threads_ne {s' : ExecutionEngine} (h : Moves s t r s') {u : Thread} (hu : u ≠ t) :
    s'.threads u = s.threads u := by
  rcases h with ⟨hsame, -⟩ | ⟨r', -, hthreads⟩
  · rw [hsame]
  · rw [hthreads, Function.update_of_ne hu]

/-- What holds of a routine and is handed on by its sections. -/
theorem Moves.threads_self {s' : ExecutionEngine} {P : Routine → Prop} (h : Moves s t (s.threads t) s')
    (hstays : P (s.threads t)) (hnext : ∀ r', Next s (s.threads t) r' → P r') : P (s'.threads t) := by
  rcases h with ⟨hsame, -⟩ | ⟨r', hr', hthreads⟩
  · rw [hsame]
    exact hstays
  · rw [hthreads, Function.update_self]
    exact hnext r' hr'

end

end ExecutionEngine

/-! ## Where the things in hand come from -/

section
variable {s : ExecutionEngine} {r r' : Routine}

/-- What may be left after `start_trader_for`. -/
theorem Routine.started_cases {P : Routine → Prop} (c : StartCaller) (hcontrolled : ∀ g, P (.controlled g))
    (hscan : P .scan) : P (Routine.started c) := by
  cases c with
  | control g => exact hcontrolled g
  | scanner => exact hscan

/-- What may be left after `stop_trader`. -/
theorem Routine.stopped_cases {P : Routine → Prop} (c : StopCaller) (hcontrolled : ∀ g, P (.controlled g))
    (hstart : ∀ g symbol, P (.start (.control g) symbol)) (hjoin : P .joinMain) : P (Routine.stopped c) := by
  cases c with
  | control g symbol =>
    simp only [Routine.stopped]
    split
    · exact hcontrolled g
    · exact hstart g symbol
  | stop => exact hjoin

@[simp] theorem Routine.thread?_started (c : StartCaller) : (Routine.started c).thread? = some c.thread := by
  cases c <;> rfl

@[simp] theorem Routine.thread?_stopped (c : StopCaller) : (Routine.stopped c).thread? = some c.thread := by
  cases c with
  | control generation symbol =>
    simp only [Routine.stopped]
    split <;> rfl
  | stop => rfl

@[simp] theorem Routine.generation?_started (c : StartCaller) :
    (Routine.started c).generation? = c.generation? := by
  cases c <;> rfl

@[simp] theorem Routine.generation?_stopped (c : StopCaller) :
    (Routine.stopped c).generation? = c.generation? := by
  cases c with
  | control generation symbol =>
    simp only [Routine.stopped]
    split <;> rfl
  | stop => rfl

@[simp] theorem Routine.symbol?_started (c : StartCaller) : (Routine.started c).symbol? = none := by
  cases c <;> rfl

theorem Routine.symbol?_stopped {c : StopCaller} {x : String} (h : (Routine.stopped c).symbol? = some x) :
    c.symbol? = some x := by
  cases c with
  | control generation symbol =>
    simp only [Routine.stopped] at h
    split at h
    · cases h
    · exact h
  | stop => cases h

@[simp] theorem Routine.document?_started (c : StartCaller) : (Routine.started c).document? = none :=
  Routine.started_cases (P := fun r => r.document? = none) c (fun _ => rfl) rfl

@[simp] theorem Routine.document?_stopped (c : StopCaller) : (Routine.stopped c).document? = none :=
  Routine.stopped_cases (P := fun r => r.document? = none) c (fun _ => rfl) (fun _ _ => rfl) rfl

/-- A thread stays in its own functions. -/
theorem Next.thread (h : Next s r r') : r'.thread? = none ∨ r'.thread? = r.thread? := by
  cases h with
  | returned => exact .inl rfl
  | controlNoStop | stopReset => exact .inr (Routine.thread?_stopped _)
  | startThread => exact .inr (Routine.thread?_started _)
  | _ => exact .inr rfl

theorem Next.generation (h : Next s r r') {g : Nat} (hg : r'.generation? = some g) :
    r.generation? = some g ∨ r = .control ∧ g = s.settings.generation ∧ g ≠ s.appliedGeneration := by
  cases h with
  | control hnew =>
    cases hg
    exact .inr ⟨rfl, rfl, hnew⟩
  | controlNoStop | stopReset => exact .inl ((Routine.generation?_stopped _).symm.trans hg)
  | startThread => exact .inl ((Routine.generation?_started _).symm.trans hg)
  | _ => first | exact .inl hg | cases hg

/-- A symbol is one that `apply_runtime_control` or `monitor_scanner` has chosen. -/
theorem Next.symbol (h : Next s r r') {x : String} (hx : r'.symbol? = some x) :
    r.symbol? = some x ∨
      (∃ g auto manual, r = .controlSymbol g auto manual ∧ x = s.restartSymbol auto manual) ∨
      (r = .scanMode ∧ s.settings.autoSymbol = true ∧ x = s.pendingSymbol) ∨
      (r = .scanManual ∧ x = s.settings.manualSymbol) := by
  cases h with
  | controlSymbol =>
    cases hx
    exact .inr (.inl ⟨_, _, _, rfl, rfl⟩)
  | scanAuto hauto =>
    cases hx
    exact .inr (.inr (.inl ⟨rfl, hauto, rfl⟩))
  | scanManual =>
    cases hx
    exact .inr (.inr (.inr ⟨rfl, rfl⟩))
  | controlNoStop | stopReset => exact .inl (Routine.symbol?_stopped hx)
  | startThread =>
    rw [Routine.symbol?_started] at hx
    cases hx
  | _ => first | exact .inl hx | cases hx

theorem Next.document (h : Next s r r') {d : Json} (hd : r'.document? = some d) : d = s.settings.strategy := by
  cases h with
  | startLoad =>
    cases hd
    rfl
  | controlNoStop | stopReset =>
    rw [Routine.document?_stopped] at hd
    cases hd
  | startThread =>
    rw [Routine.document?_started] at hd
    cases hd
  | _ => cases hd

end

namespace ExecutionEngine

/-! ## What a section leaves alone -/

section
variable {s : ExecutionEngine} {t : Thread} {r : Routine}

theorem unchanged_joinTrader : Unchanged s (s.joinTrader t r) := by
  unfold joinTrader
  cases s.traderThread <;> exact ⟨rfl, rfl, rfl, rfl, rfl⟩

theorem unchanged_applyProfit {delta : ℚ} {stored : Bool} : Unchanged s (s.applyProfit t delta stored r) := by
  unfold applyProfit
  cases stored <;> exact ⟨rfl, rfl, rfl, rfl, rfl⟩

theorem unchanged_advance (hr : r.quiet = true) (o : Outside) : Unchanged s (s.advance t o r) := by
  cases r with
  | startJoin c symbol | stopJoin c => exact unchanged_joinTrader
  | pollApply total delta | stopApply c delta => exact unchanged_applyProfit
  | controlled g | scanStore symbol | startMake c symbol risk document strategy | startActive c | stopEngine c
  | stopReset c => cases hr
  | _ =>
    simp only [advance]
    repeat' split
    all_goals exact ⟨rfl, rfl, rfl, rfl, rfl⟩

/-- Only the setters write to `RuntimeControl`'s settings. -/
theorem settings_advance (s : ExecutionEngine) (t : Thread) (o : Outside) (r : Routine) :
    (s.advance t o r).settings = s.settings := by
  cases r with
  | startJoin c symbol | stopJoin c =>
    simp only [advance, joinTrader]
    split <;> rfl
  | pollApply total delta | stopApply c delta =>
    simp only [advance, applyProfit]
    split <;> rfl
  | _ =>
    simp only [advance]
    repeat' split
    all_goals rfl

/-! ## What becomes of an engine -/

/-- The same `TradeEngine` object, later. -/
structure SameTrader (tr tr' : Trader) : Prop where
  symbol : tr'.engine.symbol = tr.engine.symbol
  document : tr'.document = tr.document

/-- `trader` points to the object it pointed to, or to none. -/
def KeepsTrader (s s' : ExecutionEngine) : Prop :=
  ∀ tr', s'.current = some tr' → ∃ tr, s.current = some tr ∧ SameTrader tr tr'

theorem keepsTrader_of_eq {s' : ExecutionEngine} (htraders : s'.traders = s.traders) (htrader : s'.trader = s.trader) :
    KeepsTrader s s' := by
  intro tr' hcur
  refine ⟨tr', ?_, rfl, rfl⟩
  unfold current at hcur ⊢
  rwa [htraders, htrader] at hcur

/-- What `trader` points to once an engine has been changed in place. -/
theorem current_set {s' : ExecutionEngine} {i : Nat} {tr₀ tr₁ tr' : Trader} (hcur : s'.current = some tr')
    (hi : s.traders[i]? = some tr₀) (htraders : s'.traders = s.traders.set i tr₁) (htrader : s'.trader = s.trader) :
    s.current = some tr' ∨ s.trader = some i ∧ s.current = some tr₀ ∧ tr' = tr₁ := by
  unfold current at hcur ⊢
  rw [htraders, htrader] at hcur
  cases htr : s.trader with
  | none =>
    rw [htr] at hcur
    cases hcur
  | some j =>
    rw [htr] at hcur
    show s.traders[j]? = some tr' ∨ some j = some i ∧ s.traders[j]? = some tr₀ ∧ tr' = tr₁
    have hget : (s.traders.set i tr₁)[j]? = some tr' := hcur
    by_cases hij : i = j
    · subst hij
      have hlt : i < s.traders.length := (List.getElem?_eq_some_iff.mp hi).1
      rw [List.getElem?_set_self hlt] at hget
      cases hget
      exact .inr ⟨rfl, hi, rfl⟩
    · rw [List.getElem?_set_ne hij] at hget
      exact .inl hget

theorem keepsTrader_set {s' : ExecutionEngine} {i : Nat} {tr₀ tr₁ : Trader} (hi : s.traders[i]? = some tr₀)
    (hsame : SameTrader tr₀ tr₁) (htraders : s'.traders = s.traders.set i tr₁) (htrader : s'.trader = s.trader) :
    KeepsTrader s s' := by
  intro tr' hcur
  rcases current_set hcur hi htraders htrader with hold | ⟨-, hold, rfl⟩
  · exact ⟨tr', hold, rfl, rfl⟩
  · exact ⟨tr₀, hold, hsame⟩

theorem sameTrader_stop (tr : Trader) : SameTrader tr tr.stop := by
  unfold Trader.stop
  split <;> exact ⟨rfl, rfl⟩

theorem stop_isOpen (tr : Trader) : tr.stop.engine.position.isOpen = tr.engine.position.isOpen := by
  unfold Trader.stop
  split <;> rfl

/-! ## Who changes what -/

theorem appliedGeneration_advance (hr : ∀ g, r ≠ .controlled g) (o : Outside) :
    (s.advance t o r).appliedGeneration = s.appliedGeneration := by
  cases hq : r.quiet with
  | true => exact (unchanged_advance hq o).appliedGeneration
  | false =>
    cases r with
    | controlled g => exact absurd rfl (hr g)
    | scanStore symbol | startActive c => rfl
    | startMake c symbol risk document strategy | stopEngine c | stopReset c =>
      simp only [advance]
      split <;> rfl
    | _ => cases hq

theorem currentSymbol_advance (hr : ∀ symbol, r ≠ .scanStore symbol) (o : Outside) :
    (s.advance t o r).currentSymbol = s.currentSymbol := by
  cases hq : r.quiet with
  | true => exact (unchanged_advance hq o).currentSymbol
  | false =>
    cases r with
    | scanStore symbol => exact absurd rfl (hr symbol)
    | controlled g | startActive c => rfl
    | startMake c symbol risk document strategy | stopEngine c | stopReset c =>
      simp only [advance]
      split <;> rfl
    | _ => cases hq

theorem traderActive_advance (hr : ∀ c, r ≠ .startActive c) {o : Outside}
    (h : (s.advance t o r).traderActive = true) : s.traderActive = true := by
  cases hq : r.quiet with
  | true => rwa [(unchanged_advance hq o).traderActive] at h
  | false =>
    cases r with
    | startActive c => exact absurd rfl (hr c)
    | controlled g | scanStore symbol => exact h
    | startMake c symbol risk document strategy | stopEngine c =>
      simp only [advance] at h
      split at h <;> exact h
    | stopReset c =>
      simp only [advance] at h
      split at h
      · exact h
      · cases h
    | _ => cases hq

/-- `trader` points to what it pointed to, or to the engine this section has made. -/
theorem current_advance {o : Outside} {tr' : Trader} (h : (s.advance t o r).current = some tr') :
    (∃ tr, s.current = some tr ∧ SameTrader tr tr' ∧ tr'.engine.position.isOpen = tr.engine.position.isOpen) ∨
      ∃ c symbol risk document strategy, r = .startMake c symbol risk document strategy ∧
        tr'.engine.symbol = symbol ∧ tr'.document = document ∧ tr'.engine.position.isOpen = false := by
  cases hq : r.quiet with
  | true =>
    have hsame : Unchanged s (s.advance t o r) := unchanged_advance hq o
    unfold current at h
    rw [hsame.traders, hsame.trader] at h
    exact .inl ⟨tr', h, ⟨rfl, rfl⟩, rfl⟩
  | false =>
    cases r with
    | controlled g | scanStore symbol | startActive c => exact .inl ⟨tr', h, ⟨rfl, rfl⟩, rfl⟩
    | startMake c symbol risk document strategy =>
      simp only [advance] at h
      split at h
      · exact .inl ⟨tr', h, ⟨rfl, rfl⟩, rfl⟩
      · have hmade : tr' = { engine := TradeEngine.init symbol true risk strategy, document } := by
          simpa [current, goto] using h.symm
        subst hmade
        exact .inr ⟨c, symbol, risk, document, strategy, rfl, rfl, rfl, rfl⟩
    | stopEngine c =>
      simp only [advance] at h
      split at h
      · next i tr htrader hcur =>
        have hi : s.traders[i]? = some tr := by simpa [current, htrader] using hcur
        rcases current_set h hi rfl rfl with hold | ⟨-, hold, rfl⟩
        · exact .inl ⟨tr', hold, ⟨rfl, rfl⟩, rfl⟩
        · exact .inl ⟨tr, hold, sameTrader_stop tr, stop_isOpen tr⟩
      · exact .inl ⟨tr', h, ⟨rfl, rfl⟩, rfl⟩
    | stopReset c =>
      simp only [advance] at h
      split at h
      · exact .inl ⟨tr', h, ⟨rfl, rfl⟩, rfl⟩
      · cases h
    | _ => cases hq

/-! ## The trader thread -/

/-- The trader thread opens a position with this event. -/
def enters (s : ExecutionEngine) : Action → Bool
  | .traderEvent clockNow systemNow saves event =>
    match s.traderThread with
    | .taking i =>
      match s.traders[i]? with
      | none => false
      | some tr =>
        !tr.engine.position.isOpen &&
          (tr.engine.processEvent (s.surroundings clockNow systemNow saves) event).engine.position.isOpen
    | _ => false
  | _ => false

/-- What becomes of the engines: one of them may have been changed in place,
and holds a position only if it held one or has just entered it. -/
def Works (s : ExecutionEngine) (a : Action) (s' : ExecutionEngine) : Prop :=
  s'.traders = s.traders ∨
    ∃ i tr₀ tr₁, s.traders[i]? = some tr₀ ∧ s'.traders = s.traders.set i tr₁ ∧ SameTrader tr₀ tr₁ ∧
      (tr₁.engine.position.isOpen = true → tr₀.engine.position.isOpen = true ∨ s.enters a = true)

/-- A step of the trader thread. -/
structure TraderStep (s : ExecutionEngine) (a : Action) (s' : ExecutionEngine) : Prop where
  threads : s'.threads = s.threads
  settings : s'.settings = s.settings
  appliedGeneration : s'.appliedGeneration = s.appliedGeneration
  currentSymbol : s'.currentSymbol = s.currentSymbol
  pendingSymbol : s'.pendingSymbol = s.pendingSymbol
  trader : s'.trader = s.trader
  traderActive : s'.traderActive = true → s.traderActive = true
  traders : Works s a s'

theorem TraderStep.keepsTrader {a : Action} {s' : ExecutionEngine} (h : TraderStep s a s') : KeepsTrader s s' := by
  rcases h.traders with hsame | ⟨i, tr₀, tr₁, hi, hset, hsame, -⟩
  · exact keepsTrader_of_eq hsame h.trader
  · exact keepsTrader_set hi hsame hset h.trader

theorem traderStep_self {a : Action} : TraderStep s a s := ⟨rfl, rfl, rfl, rfl, rfl, rfl, id, .inl rfl⟩

/-- What a step of the trader thread comes to. -/
inductive Ran (s : ExecutionEngine) : Action → ExecutionEngine → Prop
  /-- it has nothing to do -/
  | idle (a : Action) : Ran s a s
  /-- it calls `run` of no engine -/
  | null (starts : Bool) : Ran s (.traderRun starts) s.undefine
  /-- `run` throws, as the engine runs already -/
  | refused {starts : Bool} (hspawned : s.traderThread = .spawned) : Ran s (.traderRun starts) s.traderEnds
  | starts {i : Nat} {tr : Trader} (hspawned : s.traderThread = .spawned) (htrader : s.trader = some i)
      (hi : s.traders[i]? = some tr) :
      Ran s (.traderRun true)
        { s with traders := s.traders.set i { tr with running := true }, traderThread := .looping i }
  | loops {i : Nat} (hlooping : s.traderThread = .looping i) : Ran s .traderLoop { s with traderThread := .taking i }
  /-- it leaves `run`, and stops the venue -/
  | ends {a : Action} {i : Nat} {tr : Trader} (hbegun : s.traderThread ≠ .none)
      (hon : s.traderThread.runs i = true ∨ s.trader = some i) (hi : s.traders[i]? = some tr) :
      Ran s a { s with traders := s.traders.set i tr.stopVenue }.traderEnds
  | processes {i : Nat} {tr : Trader} {clockNow systemNow : TimePoint} {saves : Bool} {event : MarketEvent}
      {processed : Processed} {action : TradeAction} (htaking : s.traderThread = .taking i)
      (hi : s.traders[i]? = some tr)
      (hprocessed : tr.engine.processEvent (s.surroundings clockNow systemNow saves) event = processed)
      (hresult : processed.result = .ok action) :
      Ran s (.traderEvent clockNow systemNow saves event)
        { s with
          control := processed.control
          traders := s.traders.set i { tr with engine := processed.engine }
          traderThread := .looping i }
  /-- an exception leaves `run`, which stops the engine -/
  | throws {i : Nat} {tr : Trader} {clockNow systemNow : TimePoint} {saves : Bool} {event : MarketEvent}
      {processed : Processed} {what : String} (htaking : s.traderThread = .taking i) (hi : s.traders[i]? = some tr)
      (hprocessed : tr.engine.processEvent (s.surroundings clockNow systemNow saves) event = processed)
      (hresult : processed.result = .error what) :
      Ran s (.traderEvent clockNow systemNow saves event)
        { s with
          control := processed.control
          traders := s.traders.set i ({ tr with engine := processed.engine } : Trader).stop }.traderEnds

/-- **Inversion** of a step of the trader thread. -/
theorem ran {a : Action} (hdefined : s.undefined = false) (ha : a.ofTrader = true) : Ran s a (s.step a) := by
  have hrunning : ¬ s.undefined = true := by simp [hdefined]
  unfold step
  rw [if_neg hrunning]
  cases a with
  | traderRun starts =>
    dsimp only
    split
    · exact .idle _
    · next hspawned =>
      have hspawned : s.traderThread = .spawned := not_not.mp hspawned
      split
      · next i tr htrader hcur =>
        have hi : s.traders[i]? = some tr := by simpa [current, htrader] using hcur
        split
        · exact .refused hspawned
        · split
          · next hstarts =>
            cases hstarts
            exact .starts hspawned htrader hi
          · exact .ends (by simp [hspawned]) (.inr htrader) hi
      · exact .null starts
  | traderLoop =>
    dsimp only
    split
    · next i hlooping =>
      split
      · exact .idle _
      · next tr hi =>
        split
        · exact .loops hlooping
        · exact .ends (by simp [hlooping]) (.inl (by simp [hlooping, TraderThread.runs])) hi
    · exact .idle _
  | traderEvent clockNow systemNow saves event =>
    dsimp only
    split
    · next i htaking =>
      split
      · exact .idle _
      · next tr hi =>
        split
        · next action hresult => exact .processes htaking hi rfl hresult
        · next what hresult => exact .throws htaking hi rfl hresult
    · exact .idle _
  | traderWake =>
    dsimp only
    split
    · next i htaking =>
      split
      · exact .idle _
      · next tr hi =>
        split
        · exact .idle _
        · exact .ends (by simp [htaking]) (.inl (TraderThread.runs_taking htaking)) hi
    · exact .idle _
  | _ => cases ha

/-- A position that is open after an event was so before, or has been entered with it. -/
theorem opens_or_enters {i : Nat} {tr : Trader} {clockNow systemNow : TimePoint} {saves : Bool} {event : MarketEvent}
    {processed : Processed} (htaking : s.traderThread = .taking i) (hi : s.traders[i]? = some tr)
    (hprocessed : tr.engine.processEvent (s.surroundings clockNow systemNow saves) event = processed)
    (hopen : processed.engine.position.isOpen = true) :
    tr.engine.position.isOpen = true ∨ s.enters (.traderEvent clockNow systemNow saves event) = true := by
  have henters : s.enters (.traderEvent clockNow systemNow saves event) =
      (!tr.engine.position.isOpen && processed.engine.position.isOpen) := by
    simp only [enters, htaking, hi, hprocessed]
  rw [henters, hopen]
  cases tr.engine.position.isOpen with
  | true => exact .inl rfl
  | false => exact .inr rfl

/-- **What the trader thread can do.** -/
theorem traderStep {a : Action} (ha : a.ofTrader = true) : TraderStep s a (s.step a) := by
  cases hdefined : s.undefined with
  | true =>
    have hsame : s.step a = s := by simp [step, hdefined]
    rw [hsame]
    exact traderStep_self
  | false =>
    have hran := ran hdefined ha
    generalize s.step a = s' at hran ⊢
    cases hran with
    | idle => exact traderStep_self
    | null starts => exact ⟨rfl, rfl, rfl, rfl, rfl, rfl, id, .inl rfl⟩
    | refused hspawned => exact ⟨rfl, rfl, rfl, rfl, rfl, rfl, (fun h => by cases h), .inl rfl⟩
    | starts hspawned htrader hi =>
      exact ⟨rfl, rfl, rfl, rfl, rfl, rfl, id, .inr ⟨_, _, _, hi, rfl, ⟨rfl, rfl⟩, .inl⟩⟩
    | loops hlooping => exact ⟨rfl, rfl, rfl, rfl, rfl, rfl, id, .inl rfl⟩
    | ends hbegun hon hi =>
      exact ⟨rfl, rfl, rfl, rfl, rfl, rfl, (fun h => by cases h), .inr ⟨_, _, _, hi, rfl, ⟨rfl, rfl⟩, .inl⟩⟩
    | processes htaking hi hprocessed hresult =>
      refine ⟨rfl, rfl, rfl, rfl, rfl, rfl, id, .inr ⟨_, _, _, hi, rfl, ⟨?_, rfl⟩, opens_or_enters htaking hi hprocessed⟩⟩
      rw [← hprocessed]
      exact TradeEngine.processEvent_symbol ..
    | throws htaking hi hprocessed hresult =>
      have hstop := sameTrader_stop
      refine ⟨rfl, rfl, rfl, rfl, rfl, rfl, (fun h => by cases h), .inr ⟨_, _, _, hi, rfl, ?_, ?_⟩⟩
      · refine ⟨(hstop _).symbol.trans ?_, (hstop _).document⟩
        rw [← hprocessed]
        exact TradeEngine.processEvent_symbol ..
      · rw [stop_isOpen]
        exact opens_or_enters htaking hi hprocessed

/-! ## Threads and their functions -/

/-- Every thread is in its own functions. -/
def Owned (s : ExecutionEngine) : Prop := ∀ t u, (s.threads t).thread? = some u → u = t

theorem owned_started (account : PaperAccount) (settings : RuntimeSettings) (pendingSymbol : String) :
    Owned (started account settings pendingSymbol) := by
  intro t u hu
  cases t <;> cases hu <;> rfl

theorem Owned.advance (h : Owned s) (o : Outside) : Owned (s.advance t o (s.threads t)) := by
  have hmoves := moves_advance s t o (s.threads t)
  intro u v hv
  by_cases hut : u = t
  · subst hut
    rcases hmoves with ⟨hsame, -⟩ | ⟨r', hnext, hthreads⟩
    · rw [hsame] at hv
      exact h u v hv
    · rw [hthreads, Function.update_self] at hv
      rcases hnext.thread with hnone | hsame
      · rw [hnone] at hv
        cases hv
      · exact h u v (hsame ▸ hv)
  · rw [hmoves.threads_ne hut] at hv
    exact h u v hv

/-! ## One step -/

/-- Thread `t` goes on to `r`, and the others have what they had. -/
theorem goto_forall {P : Thread → Routine → Prop} (h : ∀ u, P u (s.threads u)) (hr : P t r) :
    ∀ u, P u ((s.goto t r).threads u) := by
  intro u
  by_cases hut : u = t
  · subst hut
    rw [goto_threads_self]
    exact hr
  · rw [goto_threads_ne s hut]
    exact h u

theorem Owned.goto (h : Owned s) (hr : r.thread? = some t) : Owned (s.goto t r) := by
  refine goto_forall (P := fun u r => ∀ v, r.thread? = some v → v = u) h ?_
  intro v hv
  rw [hr] at hv
  cases hv
  rfl

/-- **Step rule.**  A property of states is kept by every step if it is kept by
a section, by the trader thread, by the two calls from outside and by a setter. -/
theorem step_of_parts {I : ExecutionEngine → Prop} {a : Action} (h : I s)
    (hadvance : ∀ t o, a = .advance t o → I (s.advance t o (s.threads t)))
    (htrader : a.ofTrader = true → TraderStep s a (s.step a) → I (s.step a))
    (hstop : I (s.goto .stopper .stop)) (htop : ∀ symbol, I (s.goto .market (.topChanged symbol)))
    (hcommand : ∀ c, a = .command c → I (s.commanded c)) : I (s.step a) := by
  cases hdefined : s.undefined with
  | true =>
    have hsame : s.step a = s := by simp [step, hdefined]
    rwa [hsame]
  | false =>
    cases ha : a.ofTrader with
    | true => exact htrader ha (traderStep ha)
    | false =>
      cases a with
      | advance t o =>
        simp only [step, hdefined, Bool.false_eq_true, if_false]
        exact hadvance t o rfl
      | callStop =>
        simp only [step, hdefined, Bool.false_eq_true, if_false]
        split
        · exact hstop
        · exact h
      | command c =>
        simp only [step, hdefined, Bool.false_eq_true, if_false]
        exact hcommand c rfl
      | topChanged symbol =>
        simp only [step, hdefined, Bool.false_eq_true, if_false]
        split
        · exact htop symbol
        · exact h
      | _ => cases ha

end

end ExecutionEngine

end Sentum.Core
