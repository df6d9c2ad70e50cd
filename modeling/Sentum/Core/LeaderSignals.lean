import Sentum.Core.EngineSteps
import Sentum.Scanner.SymbolScanner

/-!
# Leader signals

The scanner announces a best symbol once, when it becomes the best one.  The
announcement goes through the handler, `pending_scanner_symbol` and
`monitor_scanner` to `start_trader_for`; handler and `monitor_scanner` drop it
when they find a trader active.

`LeaderSignals` puts scanner and execution engine together, with a log of what
has become of the announcements.  `signals_answered`: no announcement is lost
on the way, it is pending, handed on, or has met an active trader.
-/

namespace Sentum.Core

open Sentum.Market Sentum.Strategy Sentum.Risk Sentum.Trader Sentum.Scanner Run

namespace Routine

/-- The announcement the handler carries. -/
def top? : Routine → Option String
  | topChanged symbol | topActive symbol | topPending symbol => some symbol
  | _ => none

/-- The announcement `monitor_scanner` has taken. -/
def signal? : Routine → Option String
  | scanned symbol | scanStore symbol => some symbol
  | _ => none

/-- The next section writes to `pending_scanner_symbol`. -/
def setsPending : Routine → Bool
  | scanMode | scanManual | topPending _ => true
  | _ => false

/-- `monitor_scanner` has ended, or is about to wait. -/
def waitsForSignal : Routine → Bool
  | returned | scan | scanWait => true
  | _ => false

@[simp] theorem top?_started (c : StartCaller) : (started c).top? = none :=
  started_cases (P := fun r => r.top? = none) c (fun _ => rfl) rfl

@[simp] theorem top?_stopped (c : StopCaller) : (stopped c).top? = none :=
  stopped_cases (P := fun r => r.top? = none) c (fun _ => rfl) (fun _ _ => rfl) rfl

end Routine

inductive Happening where
  | announced (symbol : String)
  | handed (symbol : String)
  /-- the symbol has met an active trader -/
  | refused (symbol : String)
  | traderEnded
deriving DecidableEq

namespace ExecutionEngine

/-- What a section of thread `t` does with a symbol. -/
def heard (s s' : ExecutionEngine) (t : Thread) : List Happening :=
  match s.threads t, s'.threads t with
  | .topActive symbol, _ => if s.traderActive then [.refused symbol] else []
  | .scanned symbol, _ => if s.traderActive then [.refused symbol] else []
  | .start _ _, _ => []
  | _, .start _ symbol => [.handed symbol]
  | _, _ => []

def ended (s s' : ExecutionEngine) : List Happening :=
  if s.traderActive && !s'.traderActive then [.traderEnded] else []

end ExecutionEngine

/-- In automatic mode, and with announcements from the scanner only. -/
def Action.automatic : Action → Bool
  | topChanged _ => false
  | command (.setManualSymbol _) => false
  | command (.setAutoSymbol value) => value
  | _ => true

structure LeaderSignals where
  engine : ExecutionEngine
  scanner : SymbolScanner
  /-- the latest first -/
  log : List Happening := []

/-- The thread of the market events takes one, or the engine does something. -/
inductive SignalAction where
  | event (event : MarketEvent) (answer30 answer60 : Option ℚ) (walk : Cache)
  | engine (a : Action)

namespace LeaderSignals

/-- After `start()` in automatic mode. -/
def started (account : PaperAccount) (strategy : Json) (manualSymbol : String) (threshold : ℚ) : LeaderSignals :=
  { engine := .started account { strategy, manualSymbol } ""
    scanner := { minReturnThreshold := threshold } }

def step (s : LeaderSignals) : SignalAction → LeaderSignals
  | .event event answer30 answer60 walk =>
    if s.engine.undefined || !(s.engine.threads .market).isReturned then s
    else if ¬ walk.Perm (s.scanner.updated event answer30 answer60).returns30 then s
    else
      match s.scanner.onMarketEvent event answer30 answer60 walk with
      | (scanner, none) => { s with scanner }
      | (scanner, some top) =>
        { engine := s.engine.step (.topChanged top.symbol), scanner, log := .announced top.symbol :: s.log }
  | .engine a =>
    if s.engine.undefined || !a.automatic then s
    else
      let engine := s.engine.step a
      let heard := match a with
        | .advance t _ => s.engine.heard engine t
        | _ => []
      { s with engine, log := heard ++ (s.engine.ended engine ++ s.log) }

/-- No thread is on the way with an announcement. -/
def quiescent (s : LeaderSignals) : Bool :=
  (s.engine.threads .market).isReturned && (s.engine.threads .scanner).waitsForSignal

/-- The log since the trader ended. -/
def sinceTraderEnded (log : List Happening) : List Happening := log.takeWhile fun h => decide (h ≠ .traderEnded)

/-- The log since the symbol was announced. -/
def sinceAnnounced (symbol : String) (log : List Happening) : List Happening :=
  log.takeWhile fun h => decide (h ≠ .announced symbol)

/-- While nobody trades, the leader is pending or has been handed on since the last trader ended. -/
def LeaderPending (s : LeaderSignals) : Prop :=
  s.quiescent = true → s.engine.traderActive = false → s.scanner.lastTopSymbol ≠ "" →
    s.scanner.aboveThreshold s.scanner.lastTopSymbol = true →
      s.engine.pendingSymbol = s.scanner.lastTopSymbol ∨
        .handed s.scanner.lastTopSymbol ∈ sinceTraderEnded s.log

/-- The symbol has been handed on since it was announced, or has met an active trader. -/
def Answered (symbol : String) (log : List Happening) : Prop :=
  .handed symbol ∈ sinceAnnounced symbol log ∨ .refused symbol ∈ sinceAnnounced symbol log

/-- The last announcement is pending or answered. -/
def SignalAnswered (s : LeaderSignals) : Prop :=
  s.quiescent = true → s.scanner.lastTopSymbol ≠ "" →
    s.engine.pendingSymbol = s.scanner.lastTopSymbol ∨ Answered s.scanner.lastTopSymbol s.log

/-! ## The log -/

theorem sinceAnnounced_append {symbol : String} {log new : List Happening}
    (hnew : ∀ x ∈ new, x ≠ .announced symbol) :
    sinceAnnounced symbol (new ++ log) = new ++ sinceAnnounced symbol log :=
  List.takeWhile_append_of_pos fun x hx => decide_eq_true (hnew x hx)

theorem Answered.append {symbol : String} {log new : List Happening} (h : Answered symbol log)
    (hnew : ∀ x ∈ new, x ≠ .announced symbol) : Answered symbol (new ++ log) := by
  unfold Answered
  rw [sinceAnnounced_append hnew]
  exact h.imp (List.mem_append_right new) (List.mem_append_right new)

/-- What has just happened has happened since the announcement. -/
theorem answered_new {symbol : String} {log new : List Happening}
    (h : .handed symbol ∈ new ∨ .refused symbol ∈ new) (hnew : ∀ x ∈ new, x ≠ .announced symbol) :
    Answered symbol (new ++ log) := by
  unfold Answered
  rw [sinceAnnounced_append hnew]
  exact h.imp (List.mem_append_left _) (List.mem_append_left _)

theorem heard_not_announced {s s' : ExecutionEngine} {t : Thread} {symbol : String} :
    ∀ x ∈ s.heard s' t, x ≠ .announced symbol := by
  intro x hx
  unfold ExecutionEngine.heard at hx
  split at hx
  · split at hx
    · rw [List.mem_singleton.mp hx]
      exact fun hno => by cases hno
    · cases hx
  · split at hx
    · rw [List.mem_singleton.mp hx]
      exact fun hno => by cases hno
    · cases hx
  · cases hx
  · rw [List.mem_singleton.mp hx]
    exact fun hno => by cases hno
  · cases hx

theorem ended_not_announced {s s' : ExecutionEngine} {symbol : String} :
    ∀ x ∈ s.ended s', x ≠ .announced symbol := by
  intro x hx
  unfold ExecutionEngine.ended at hx
  split at hx
  · rw [List.mem_singleton.mp hx]
    exact fun hno => by cases hno
  · cases hx

end LeaderSignals

/-! ## An announcement on its way -/

theorem Next.top {s : ExecutionEngine} {r r' : Routine} (h : Next s r r') {symbol : String}
    (hr' : r'.top? = some symbol) : r.top? = some symbol := by
  cases h with
  | startThread =>
    rw [Routine.top?_started] at hr'
    cases hr'
  | controlNoStop | stopReset =>
    rw [Routine.top?_stopped] at hr'
    cases hr'
  | _ => first | exact hr' | cases hr'

/-- In automatic mode `monitor_scanner` takes no manual symbol. -/
theorem Next.manual {s : ExecutionEngine} {r r' : Routine} (h : Next s r r') (hr' : r' = .scanManual) :
    s.settings.autoSymbol = false := by
  cases h with
  | scanMode hmanual => exact hmanual
  | startThread =>
    exact absurd hr' (Routine.started_cases (P := fun r => r ≠ .scanManual) _ (fun _ hno => by cases hno)
      (fun hno => by cases hno))
  | controlNoStop | stopReset =>
    exact absurd hr' (Routine.stopped_cases (P := fun r => r ≠ .scanManual) _ (fun _ hno => by cases hno)
      (fun _ _ hno => by cases hno) (fun hno => by cases hno))
  | _ => cases hr'

namespace ExecutionEngine

theorem pendingSymbol_advance {s : ExecutionEngine} {t : Thread} {r : Routine} (h : r.setsPending = false)
    (o : Outside) : (s.advance t o r).pendingSymbol = s.pendingSymbol := by
  cases r with
  | scanMode | scanManual | topPending symbol => cases h
  | startJoin c symbol | stopJoin c =>
    simp only [advance, joinTrader]
    split <;> rfl
  | pollApply total delta | stopApply c delta =>
    simp only [advance, applyProfit]
    split <;> rfl
  | _ =>
    simp only [advance]
    repeat' split
    all_goals rfl

/-- The symbol is on its way from the scanner to `start_trader_for`. -/
def OnItsWay (s : ExecutionEngine) (symbol : String) : Prop :=
  (s.threads .market).top? = some symbol ∨ s.pendingSymbol = symbol ∨ (s.threads .scanner).signal? = some symbol

/-- **Invariant**, for the symbol announced last. -/
structure Carries (s : ExecutionEngine) (last : String) : Prop where
  own : Owned s
  auto : s.settings.autoSymbol = true
  scanned : s.threads .scanner ≠ .scanManual
  top : ∀ symbol, (s.threads .market).top? = some symbol → symbol = last

section
variable {s s' : ExecutionEngine} {t : Thread} {last : String}

theorem carries_advance (h : Carries s last) (o : Outside) : Carries (s.advance t o (s.threads t)) last := by
  have hmoves := moves_advance s t o (s.threads t)
  refine ⟨h.own.advance o, ?_, ?_, ?_⟩
  · rw [settings_advance]
    exact h.auto
  · by_cases hscanner : t = .scanner
    · subst hscanner
      refine hmoves.threads_self (P := fun r => r ≠ .scanManual) h.scanned fun r' hnext hr' => ?_
      have hmanual := hnext.manual hr'
      rw [h.auto] at hmanual
      cases hmanual
    · rw [hmoves.threads_ne (Ne.symm hscanner)]
      exact h.scanned
  · by_cases hmarket : t = .market
    · subst hmarket
      refine hmoves.threads_self (P := fun r => ∀ symbol, r.top? = some symbol → symbol = last) h.top ?_
      exact fun r' hnext symbol hsymbol => h.top symbol (hnext.top hsymbol)
    · rw [hmoves.threads_ne (Ne.symm hmarket)]
      exact h.top

/-- The handler carries the symbol on, or finds a trader active. -/
theorem Carries.market_advance (h : Carries s last) (o : Outside) (htop : (s.threads .market).top? = some last) :
    OnItsWay (s.advance .market o (s.threads .market)) last ∨
      .refused last ∈ s.heard (s.advance .market o (s.threads .market)) .market := by
  cases hr : s.threads .market with
  | topChanged symbol =>
    rw [hr] at htop
    cases htop
    left
    left
    simp [advance, h.auto, Routine.top?]
  | topActive symbol =>
    rw [hr] at htop
    cases htop
    cases hactive : s.traderActive with
    | true =>
      right
      simp [heard, hr, hactive]
    | false =>
      left
      left
      simp [advance, hactive, Routine.top?]
  | topPending symbol =>
    rw [hr] at htop
    cases htop
    left
    simp only [advance]
    split
    · left
      rw [hr]
      rfl
    · exact .inr (.inl rfl)
  | _ =>
    rw [hr] at htop
    cases htop

/-- `monitor_scanner` hands the symbol on, or finds a trader active. -/
theorem scanner_advance (o : Outside) (hsome : last ≠ "") (hsignal : (s.threads .scanner).signal? = some last) :
    OnItsWay (s.advance .scanner o (s.threads .scanner)) last ∨
      .refused last ∈ s.heard (s.advance .scanner o (s.threads .scanner)) .scanner ∨
        .handed last ∈ s.heard (s.advance .scanner o (s.threads .scanner)) .scanner := by
  cases hr : s.threads .scanner with
  | scanned symbol =>
    rw [hr] at hsignal
    cases hsignal
    cases hactive : s.traderActive with
    | true =>
      right
      left
      simp [heard, hr, hactive]
    | false =>
      left
      right
      right
      simp [advance, hactive, hsome, Routine.signal?]
  | scanStore symbol =>
    rw [hr] at hsignal
    cases hsignal
    right
    right
    simp [heard, hr, advance]
  | _ =>
    rw [hr] at hsignal
    cases hsignal

/-- A pending symbol stays, or `monitor_scanner` takes it. -/
theorem Carries.pending_advance (h : Carries s last) (o : Outside) (hpending : s.pendingSymbol = last) :
    OnItsWay (s.advance t o (s.threads t)) last := by
  cases hr : s.threads t with
  | scanMode =>
    have hscanner := h.own t .scanner (by rw [hr]; rfl)
    subst hscanner
    right
    right
    simp [advance, h.auto, hpending, Routine.signal?]
  | scanManual =>
    have hscanner := h.own t .scanner (by rw [hr]; rfl)
    subst hscanner
    exact absurd hr h.scanned
  | topPending symbol =>
    have hmarket := h.own t .market (by rw [hr]; rfl)
    subst hmarket
    have hsame : symbol = last := h.top symbol (by rw [hr]; rfl)
    right
    left
    simp only [advance]
    split
    · exact hpending
    · exact hsame
  | _ =>
    right
    left
    rw [pendingSymbol_advance rfl]
    exact hpending

/-- **A section** loses no symbol on its way. -/
theorem Carries.onItsWay_advance (h : Carries s last) (o : Outside) (hsome : last ≠ "") (hway : OnItsWay s last) :
    OnItsWay (s.advance t o (s.threads t)) last ∨
      .refused last ∈ s.heard (s.advance t o (s.threads t)) t ∨
        .handed last ∈ s.heard (s.advance t o (s.threads t)) t := by
  have hmoves := moves_advance s t o (s.threads t)
  rcases hway with htop | hpending | hsignal
  · by_cases hmarket : t = .market
    · subst hmarket
      rcases h.market_advance o htop with hway | hrefused
      · exact .inl hway
      · exact .inr (.inl hrefused)
    · rw [← hmoves.threads_ne (Ne.symm hmarket)] at htop
      exact .inl (.inl htop)
  · exact .inl (h.pending_advance o hpending)
  · by_cases hscanner : t = .scanner
    · subst hscanner
      exact scanner_advance o hsome hsignal
    · rw [← hmoves.threads_ne (Ne.symm hscanner)] at hsignal
      exact .inl (.inr (.inr hsignal))

/-- What leaves the two threads, their functions and the mode alone. -/
theorem Carries.congr (h : Carries s last) (hown : Owned s') (hmode : s'.settings.autoSymbol = true)
    (hmarket : s'.threads .market = s.threads .market) (hscanner : s'.threads .scanner = s.threads .scanner) :
    Carries s' last := by
  refine ⟨hown, hmode, ?_, ?_⟩
  · rw [hscanner]
    exact h.scanned
  · rw [hmarket]
    exact h.top

theorem OnItsWay.congr (h : OnItsWay s last) (hmarket : s'.threads .market = s.threads .market)
    (hscanner : s'.threads .scanner = s.threads .scanner) (hpending : s'.pendingSymbol = s.pendingSymbol) :
    OnItsWay s' last := by
  unfold OnItsWay
  rw [hmarket, hscanner, hpending]
  exact h

end

end ExecutionEngine

namespace LeaderSignals

open ExecutionEngine (Carries OnItsWay)

/-! ## Runs -/

/-- **Invariant.** -/
structure Sound (s : LeaderSignals) : Prop where
  carries : Carries s.engine s.scanner.lastTopSymbol
  way : s.scanner.lastTopSymbol ≠ "" →
    OnItsWay s.engine s.scanner.lastTopSymbol ∨ Answered s.scanner.lastTopSymbol s.log

theorem sound_started (account : PaperAccount) (strategy : Json) (manualSymbol : String) (threshold : ℚ) :
    Sound (started account strategy manualSymbol threshold) := by
  refine ⟨⟨ExecutionEngine.owned_started _ _ _, rfl, fun hno => ?_, fun symbol hsymbol => ?_⟩, ?_⟩
  · cases hno
  · cases hsymbol
  · intro hsome
    exact absurd rfl hsome

section
variable {s : LeaderSignals}

/-- The engine does something that leaves handler and `monitor_scanner` where they are. -/
theorem Sound.beside (h : Sound s) {engine : ExecutionEngine} (hown : ExecutionEngine.Owned engine)
    (hmode : engine.settings.autoSymbol = true) (hmarket : engine.threads .market = s.engine.threads .market)
    (hscanner : engine.threads .scanner = s.engine.threads .scanner)
    (hpending : engine.pendingSymbol = s.engine.pendingSymbol) :
    Sound { s with engine, log := s.engine.ended engine ++ s.log } := by
  refine ⟨h.carries.congr hown hmode hmarket hscanner, fun hsome => ?_⟩
  rcases h.way hsome with hway | hanswered
  · exact .inl (hway.congr hmarket hscanner hpending)
  · exact .inr (hanswered.append ended_not_announced)

theorem Sound.advance (h : Sound s) (t : Thread) (o : Outside) :
    Sound { s with
      engine := s.engine.advance t o (s.engine.threads t)
      log := s.engine.heard (s.engine.advance t o (s.engine.threads t)) t ++
        (s.engine.ended (s.engine.advance t o (s.engine.threads t)) ++ s.log) } := by
  refine ⟨ExecutionEngine.carries_advance h.carries o, fun hsome => ?_⟩
  rcases h.way hsome with hway | hanswered
  · rcases h.carries.onItsWay_advance o hsome hway with hon | hrefused | hhanded
    · exact .inl hon
    · exact .inr (answered_new (.inr hrefused) heard_not_announced)
    · exact .inr (answered_new (.inl hhanded) heard_not_announced)
  · exact .inr ((hanswered.append ended_not_announced).append heard_not_announced)

/-- The scanner announces a symbol. -/
theorem Sound.announce (h : Sound s) {scanner : SymbolScanner} {top : SymbolPerformance}
    (hlast : scanner.lastTopSymbol = top.symbol) (log : List Happening) :
    Sound { engine := s.engine.goto .market (.topChanged top.symbol), scanner, log } := by
  have hself : (s.engine.goto .market (.topChanged top.symbol)).threads .market = .topChanged top.symbol :=
    ExecutionEngine.goto_threads_self _ _ _
  refine ⟨⟨h.carries.own.goto rfl, h.carries.auto, ?_, ?_⟩, fun _ => .inl (.inl ?_)⟩
  · rw [ExecutionEngine.goto_threads_ne _ (by decide)]
    exact h.carries.scanned
  · intro symbol hsymbol
    rw [hself] at hsymbol
    cases hsymbol
    exact hlast.symm
  · rw [hself, hlast]
    rfl

theorem sound_event (h : Sound s) (event : MarketEvent) (answer30 answer60 : Option ℚ) (walk : Cache) :
    Sound (s.step (.event event answer30 answer60 walk)) := by
  simp only [step]
  split
  · exact h
  · next hfree =>
    split
    · exact h
    · cases hseen : s.scanner.onMarketEvent event answer30 answer60 walk with
      | mk scanner announced =>
        cases announced with
        | none =>
          have hlast := SymbolScanner.onMarketEvent_silent hseen
          refine ⟨?_, ?_⟩
          · show Carries s.engine scanner.lastTopSymbol
            rw [hlast]
            exact h.carries
          · show scanner.lastTopSymbol ≠ "" → OnItsWay s.engine scanner.lastTopSymbol ∨ Answered scanner.lastTopSymbol s.log
            rw [hlast]
            exact h.way
        | some top =>
          simp only [Bool.or_eq_true, Bool.not_eq_true', not_or, Bool.not_eq_true, Bool.not_eq_false] at hfree
          have hstep : s.engine.step (.topChanged top.symbol) = s.engine.goto .market (.topChanged top.symbol) := by
            simp [ExecutionEngine.step, hfree.1, hfree.2]
          simp only [hstep]
          exact h.announce (SymbolScanner.onMarketEvent_announced hseen).1 _

theorem sound_engine (h : Sound s) (a : Action) : Sound (s.step (.engine a)) := by
  simp only [step]
  split
  · exact h
  · next hgo =>
    simp only [Bool.or_eq_true, Bool.not_eq_true', not_or, Bool.not_eq_true, Bool.not_eq_false] at hgo
    obtain ⟨hdefined, hauto⟩ := hgo
    cases ha : a.ofTrader with
    | true =>
      have hwork := ExecutionEngine.traderStep (s := s.engine) ha
      have hown : ExecutionEngine.Owned (s.engine.step a) := by
        unfold ExecutionEngine.Owned
        rw [hwork.threads]
        exact h.carries.own
      have hbeside := h.beside hown (by rw [hwork.settings]; exact h.carries.auto) (by rw [hwork.threads])
        (by rw [hwork.threads]) hwork.pendingSymbol
      cases a <;> first | exact hbeside | cases ha
    | false =>
      cases a with
      | advance t o =>
        have hstep : s.engine.step (.advance t o) = s.engine.advance t o (s.engine.threads t) := by
          simp [ExecutionEngine.step, hdefined]
        simp only [hstep]
        exact h.advance t o
      | callStop =>
        have hstep : s.engine.step .callStop = s.engine ∨ s.engine.step .callStop = s.engine.goto .stopper .stop := by
          simp only [ExecutionEngine.step, hdefined, Bool.false_eq_true, if_false]
          split
          · exact .inr rfl
          · exact .inl rfl
        rcases hstep with hsame | hstop
        · rw [hsame]
          exact h.beside h.carries.own h.carries.auto rfl rfl rfl
        · rw [hstop]
          refine h.beside (h.carries.own.goto rfl) h.carries.auto ?_ ?_ rfl
          · exact ExecutionEngine.goto_threads_ne _ (by decide) _
          · exact ExecutionEngine.goto_threads_ne _ (by decide) _
      | command c =>
        have hstep : s.engine.step (.command c) = s.engine.commanded c := by
          simp [ExecutionEngine.step, hdefined]
        rw [hstep]
        cases c with
        | setManualSymbol value => cases hauto
        | setAutoSymbol value => exact h.beside h.carries.own hauto rfl rfl rfl
        | setStrategy value => exact h.beside h.carries.own h.carries.auto rfl rfl rfl
        | pauseEntries value => exact h.beside h.carries.own h.carries.auto rfl rfl rfl
        | requestManualClose => exact h.beside h.carries.own h.carries.auto rfl rfl rfl
      | topChanged symbol => cases hauto
      | _ => cases ha

/-- **Step lemma.** -/
theorem sound_step (h : Sound s) (a : SignalAction) : Sound (s.step a) := by
  cases a with
  | event event answer30 answer60 walk => exact sound_event h event answer30 answer60 walk
  | engine a => exact sound_engine h a

/-- When nobody is on the way with it, the last announcement is pending or answered. -/
theorem Sound.answered (h : Sound s) : s.SignalAnswered := by
  intro hquiet hsome
  simp only [quiescent, Bool.and_eq_true] at hquiet
  rcases h.way hsome with (htop | hpending | hsignal) | hanswered
  · obtain ⟨hmarket, -⟩ := hquiet
    generalize s.engine.threads .market = r at htop hmarket
    cases r <;> contradiction
  · exact .inl hpending
  · obtain ⟨-, hscanner⟩ := hquiet
    generalize s.engine.threads .scanner = r at hsignal hscanner
    cases r <;> contradiction
  · exact .inr hanswered

end

/-- **Announcements are answered**: in every quiescent state of every run in
automatic mode, the symbol announced last is pending, or since its announcement
it has been handed to `start_trader_for` or has met an active trader. -/
theorem signals_answered (account : PaperAccount) (strategy : Json) (manualSymbol : String) (threshold : ℚ)
    (as : List SignalAction) :
    (exec step (started account strategy manualSymbol threshold) as).SignalAnswered := by
  have hkeep : ∀ s a, Sound s → Sound (step s a) := fun _ a h => sound_step h a
  exact (exec_inv hkeep (sound_started account strategy manualSymbol threshold) as).answered

/-! ### A leader announced while a trader is active -/

/-- The next `n` sections of a thread. -/
def sections (t : Thread) (n : Nat) : List SignalAction :=
  (ExecutionEngine.sections t n).map .engine

/-- A closed candle of a symbol, with the return of its last 30. -/
def candle (symbol : String) (answer : ℚ) (walk : Cache) : SignalAction :=
  .event { symbol } (some answer) none walk

def automaticPaper : LeaderSignals := started { equity := 1000 } quickMomentumDocument "" (5 / 10000)

/-- BTCUSDT is announced and traded; ETHUSDT becomes the leader; the trader fails. -/
def refusedRun : List SignalAction :=
  candle "BTCUSDT" (1 / 100) [("BTCUSDT", 1 / 100)] :: sections .market 3 ++ sections .scanner 12 ++
    candle "ETHUSDT" (2 / 100) [("ETHUSDT", 2 / 100), ("BTCUSDT", 1 / 100)] :: sections .market 2 ++
    [.engine (.traderRun false)]

theorem refusedRun_not_pending : ¬ (exec step automaticPaper refusedRun).LeaderPending := by
  intro h
  have hlost := h (by decide +kernel) (by decide +kernel) (by decide +kernel) (by decide +kernel)
  revert hlost
  decide +kernel

end LeaderSignals

end Sentum.Core
