import Mathlib.Algebra.BigOperators.Group.List.Basic
import Mathlib.Data.List.Nodup
import Sentum.Lib.Run
import Sentum.Trader.TradeEngine

/-!
# The engine's books

`close_position` adds the trade to the totals before the database write that
may throw, and appends it to the completed trades after it.  A caller that
catches the exception goes on with an open position whose profit is booked
already; `balanced_iff` says that this is the only way the books get out of
balance.
-/

namespace Sentum.Trader

open Sentum.Market Sentum.Strategy Sentum.Risk Sentum.Execution Run

/-- An engine whose caller goes on after an exception. -/
structure EngineRun where
  engine : TradeEngine
  control : RuntimeControl := {}
  /-- how many positions have been opened -/
  opened : Nat := 0
  /-- for each booking of a profit, the position it was for -/
  bookings : List Nat := []

inductive EngineAction where
  | event (clockNow systemNow : TimePoint) (saves : Bool) (event : MarketEvent)
  | pauseEntries (value : Bool)
  | requestManualClose
  | stop

namespace EngineRun

def start (symbol : String) (api : Bool) (risk : RiskConfig) (strategy : IStrategy) : EngineRun :=
  { engine := .init symbol api risk strategy }

def surroundings (s : EngineRun) (clockNow systemNow : TimePoint) (saves : Bool) : Surroundings :=
  { clockNow, systemNow, control := s.control, saves }

def step (s : EngineRun) : EngineAction → EngineRun
  | .event clockNow systemNow saves event =>
    let processed := s.engine.processEvent (s.surroundings clockNow systemNow saves) event
    let e := processed.engine
    { engine := e
      control := processed.control
      opened := if !s.engine.position.isOpen && e.position.isOpen then s.opened + 1 else s.opened
      bookings :=
        if e.winCount + e.loseCount = s.engine.winCount + s.engine.loseCount then s.bookings
        else s.bookings ++ [s.opened] }
  | .pauseEntries value => { s with control := { s.control with entriesPaused := value } }
  | .requestManualClose => { s with control := { s.control with manualClose := true } }
  | .stop => { s with engine := { s.engine with venue := s.engine.venue.stop } }

/-- The profit is that of the completed trades, there are as many of them as
wins and losses, and no position has been booked twice. -/
structure Balanced (s : EngineRun) : Prop where
  profit : s.engine.totalProfit = (s.engine.completed.map TradePosition.netProfit).sum
  count : s.engine.winCount + s.engine.loseCount = s.engine.completed.length
  once : s.bookings.Nodup

/-- **Invariant.**  The position that is open has not been booked. -/
structure Booked (s : EngineRun) : Prop where
  balanced : Balanced s
  opened : ∀ n ∈ s.bookings, n ≤ s.opened
  unbooked : s.engine.position.isOpen = true → ∀ n ∈ s.bookings, n < s.opened

/-- The database takes every trade that is booked. -/
def savesWhenClosing (s : EngineRun) : EngineAction → Bool
  | .event clockNow systemNow saves event =>
    saves || !s.engine.closes (s.surroundings clockNow systemNow saves) event
  | _ => true

theorem booked_start (symbol : String) (api : Bool) (risk : RiskConfig) (strategy : IStrategy) :
    Booked (start symbol api risk strategy) :=
  ⟨⟨rfl, rfl, List.nodup_nil⟩, by simp [start], by simp [start]⟩

/-- A call of `process_event` keeps the balance unless a write fails. -/
theorem booked_event {s : EngineRun} (h : Booked s) {clockNow systemNow : TimePoint} {saves : Bool}
    {event : MarketEvent} (hg : s.savesWhenClosing (.event clockNow systemNow saves event) = true) :
    Booked (step s (.event clockNow systemNow saves event)) := by
  obtain ⟨⟨hprofit, hcount, honce⟩, hle, hlt⟩ := h
  have heff := TradeEngine.processEvent_effect s.engine (s.surroundings clockNow systemNow saves) event
  have hg' : saves = true ∨ s.engine.closes (s.surroundings clockNow systemNow saves) event = false := by
    simpa [savesWhenClosing] using hg
  unfold step
  simp only
  generalize (s.engine.processEvent (s.surroundings clockNow systemNow saves) event).engine = e' at heff ⊢
  generalize s.engine.closes (s.surroundings clockNow systemNow saves) event = closes at heff hg'
  cases heff with
  | kept hbooks hopen =>
    obtain ⟨hp, hw, hl, hc⟩ := hbooks
    have hsame : (!s.engine.position.isOpen && e'.position.isOpen) = false := by
      rw [hopen]
      cases s.engine.position.isOpen <;> rfl
    rw [hw, hl, if_pos rfl, hsame]
    refine ⟨⟨?_, ?_, honce⟩, hle, fun ho => hlt (hopen ▸ ho)⟩
    · rw [hp, hc]
      exact hprofit
    · rw [hw, hl, hc]
      exact hcount
  | entered hbooks hflat hopen =>
    obtain ⟨hp, hw, hl, hc⟩ := hbooks
    have hnew : (!s.engine.position.isOpen && e'.position.isOpen) = true := by rw [hflat, hopen]; rfl
    rw [hw, hl, if_pos rfl, hnew, if_pos rfl]
    refine ⟨⟨?_, ?_, honce⟩, fun n hn => ?_, fun _ n hn => ?_⟩
    · rw [hp, hc]
      exact hprofit
    · rw [hw, hl, hc]
      exact hcount
    · exact Nat.le_succ_of_le (hle n hn)
    · exact Nat.lt_succ_of_le (hle n hn)
  | closed p hopen hsaves hp hn hc hflat =>
    have hold : (!s.engine.position.isOpen && e'.position.isOpen) = false := by rw [hopen]; rfl
    have hmore : ¬ e'.winCount + e'.loseCount = s.engine.winCount + s.engine.loseCount := by omega
    rw [hold, if_neg hmore]
    refine ⟨⟨?_, ?_, ?_⟩, fun n hn' => ?_, fun ho => ?_⟩
    · rw [hp, hc, hprofit]
      simp
    · rw [hn, hc, hcount]
      simp
    · rw [List.nodup_append]
      refine ⟨honce, List.nodup_singleton _, fun a ha b hb => ?_⟩
      rw [List.mem_singleton.mp hb]
      exact Nat.ne_of_lt (hlt hopen a ha)
    · rcases List.mem_append.mp hn' with hn' | hn'
      · exact hle n hn'
      · rw [List.mem_singleton.mp hn']
        exact Nat.le_refl _
    · rw [hflat] at ho
      cases ho
  | bookedOnly p hopen hsaves hp hn hc hstill =>
    rcases hg' with hs | hs
    · have hno : saves = false := hsaves
      rw [hs] at hno
      cases hno
    · cases hs

/-- A failed write leaves a booked trade out of the completed ones. -/
theorem not_balanced_event {s : EngineRun} (h : Balanced s) {clockNow systemNow : TimePoint} {saves : Bool}
    {event : MarketEvent} (hg : ¬ s.savesWhenClosing (.event clockNow systemNow saves event) = true) :
    ¬ Balanced (step s (.event clockNow systemNow saves event)) := by
  intro hb
  have heff := TradeEngine.processEvent_effect s.engine (s.surroundings clockNow systemNow saves) event
  simp only [savesWhenClosing, Bool.or_eq_true, Bool.not_eq_true', not_or, Bool.not_eq_true,
    Bool.not_eq_false] at hg
  obtain ⟨hsaves, hcloses⟩ := hg
  have hcount := hb.count
  have hbefore := h.count
  simp only [step] at hcount
  rw [hcloses] at heff
  cases heff with
  | closed p hopen hs =>
    have hyes : saves = true := hs
    rw [hsaves] at hyes
    cases hyes
  | bookedOnly p hopen hs hp hn hc hstill =>
    rw [hc] at hcount
    omega

/-- **The books balance** in every state of a run exactly when no database
write of a booked trade fails in it. -/
theorem balanced_iff (symbol : String) (api : Bool) (risk : RiskConfig) (strategy : IStrategy)
    (as : List EngineAction) :
    Along step Balanced (start symbol api risk strategy) as ↔
      Guarded step (fun s a => s.savesWhenClosing a = true) (start symbol api risk strategy) as := by
  have hkeep : ∀ s a, Booked s → s.savesWhenClosing a = true → Booked (step s a) := by
    intro s a h hg
    cases a with
    | event clockNow systemNow saves event => exact booked_event h hg
    | pauseEntries value => exact ⟨⟨h.balanced.profit, h.balanced.count, h.balanced.once⟩, h.opened, h.unbooked⟩
    | requestManualClose => exact ⟨⟨h.balanced.profit, h.balanced.count, h.balanced.once⟩, h.opened, h.unbooked⟩
    | stop => exact ⟨⟨h.balanced.profit, h.balanced.count, h.balanced.once⟩, h.opened, h.unbooked⟩
  have hbreak : ∀ s a, Booked s → ¬ s.savesWhenClosing a = true → ¬ Balanced (step s a) := by
    intro s a h hg
    cases a with
    | event clockNow systemNow saves event => exact not_balanced_event h.balanced hg
    | _ => exact absurd rfl hg
  exact along_iff_guarded (fun s h => h.balanced) hkeep hbreak (booked_start symbol api risk strategy)

/-! ## The trade that is booked twice -/

/-- The write fails at the close, the caller goes on, and the next price closes again. -/
def retriedClose : List EngineAction :=
  [.event (seconds 1) (seconds 1) true (btcEvent 1 100), .event (seconds 2) (seconds 2) true (btcEvent 2 101),
   .event (seconds 3) (seconds 3) false (btcEvent 3 110), .event (seconds 4) (seconds 4) true (btcEvent 4 110)]

theorem retriedClose_not_balanced :
    ¬ Balanced (exec step (start "BTCUSDT" false shippedRisk quickMomentum) retriedClose) := by
  intro h
  have hbookings : (exec step (start "BTCUSDT" false shippedRisk quickMomentum) retriedClose).bookings = [1, 1] := by
    decide +kernel
  have honce := h.once
  rw [hbookings] at honce
  exact absurd honce (by decide)

end EngineRun

end Sentum.Trader
