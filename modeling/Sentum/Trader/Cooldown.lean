import Mathlib.Data.List.Chain
import Sentum.Trader.OpenPositions
import Sentum.Trader.TradeSequence

/-!
# The cooldown

`approve_entry` compares the last exit, which is the time of an event, with
the system clock; the trade that it lets through is entered at the time of its
event again.  An event may be read up to `max_data_age_ms` after its time, so a
cooldown can be over for the clock and not yet for the event: `spaced_iff` says
that this is the only way in which two trades come too close.
-/

namespace Sentum.Trader

open Sentum.Order Sentum.Market Sentum.Strategy Sentum.Risk Sentum.Execution Run

namespace TradeEngine

/-- All that an entry at this event needs, but for the cooldown. -/
structure WouldEnter (e : TradeEngine) (s : Surroundings) (event : MarketEvent) : Prop where
  takes : e.takes s.clockNow event = true
  flat : e.position.isOpen = false
  unpaused : s.control.entriesPaused = false
  buys : (e.strategy.onEvent event).2.action = .buy
  fresh : s.systemNow - event.timestamp ≤ milliseconds e.risk.maxDataAgeMs
  sized : (RiskManager.entrySize e.risk event.price).approved = true
  accepts : (e.venue.setMarket event.price event.timestamp).accepts (e.entryRequest event) = true

theorem enters_iff {e : TradeEngine} {s : Surroundings} {event : MarketEvent} :
    Enters e s event ↔ WouldEnter e s event ∧ ¬ RiskManager.Cooling e.risk e.lastExit s.systemNow := by
  constructor
  · rintro ⟨htakes, hflat, hunpaused, happroved, haccepts⟩
    obtain ⟨⟨hbuy, -, hfresh, hsize⟩, hcooling⟩ := RiskManager.approveEntry_approved_iff.mp happroved
    exact ⟨⟨htakes, hflat, hunpaused, hbuy, hfresh, hsize, haccepts⟩, hcooling⟩
  · rintro ⟨⟨htakes, hflat, hunpaused, hbuy, hfresh, hsize, haccepts⟩, hcooling⟩
    refine ⟨htakes, hflat, hunpaused, ?_, haccepts⟩
    exact RiskManager.approveEntry_approved_iff.mpr ⟨⟨hbuy, takes_price htakes, hfresh, hsize⟩, hcooling⟩

end TradeEngine

/-- `later` was entered a cooldown after `earlier` was left. -/
def TradePosition.Apart (risk : RiskConfig) (earlier later : TradePosition) : Prop :=
  seconds risk.cooldownSeconds ≤ later.entryTime - earlier.exitTime

namespace EngineRun

/-- Consecutive trades are a cooldown apart, the one that is open included. -/
structure Spaced (s : EngineRun) : Prop where
  completed : s.engine.completed.IsChain (TradePosition.Apart s.engine.risk)
  position : s.engine.position.isOpen = true →
    ∀ last ∈ s.engine.completed.getLast?, TradePosition.Apart s.engine.risk last s.engine.position

/-- **Invariant.** -/
structure Timed (s : EngineRun) : Prop where
  spaced : Spaced s
  lastExit : ∀ last ∈ s.engine.completed.getLast?, s.engine.lastExit = last.exitTime

/-- An event that is bought after a trade comes a cooldown after it, or the
clock says that it does not. -/
def WaitsOut (s : EngineRun) : EngineAction → Prop
  | .event clockNow systemNow saves event =>
    TradeEngine.WouldEnter s.engine (s.surroundings clockNow systemNow saves) event →
      s.engine.completed ≠ [] →
      seconds s.engine.risk.cooldownSeconds ≤ event.timestamp - s.engine.lastExit ∨
        RiskManager.Cooling s.engine.risk s.engine.lastExit systemNow
  | _ => True

theorem timed_start (symbol : String) (api : Bool) (risk : RiskConfig) (strategy : IStrategy) :
    Timed (start symbol api risk strategy) where
  spaced := ⟨List.IsChain.nil, fun hopen => absurd hopen Bool.false_ne_true⟩
  lastExit := fun _ hlast => by cases hlast

/-- **Step lemma**, for an event. -/
theorem Timed.event {s : EngineRun} (h : Timed s) {clockNow systemNow : TimePoint} {saves : Bool}
    {event : MarketEvent} (hwaits : WaitsOut s (.event clockNow systemNow saves event)) :
    Timed (s.step (.event clockNow systemNow saves event)) := by
  have htrans := TradeEngine.processEvent_transition s.engine (s.surroundings clockNow systemNow saves) event
  have hmark : ∀ x, (s.engine.position.mark x).entryTime = s.engine.position.entryTime :=
    fun x => s.engine.position.mark_entryTime x
  unfold step
  dsimp only
  generalize (s.engine.processEvent (s.surroundings clockNow systemNow saves) event).result = result at htrans
  generalize (s.engine.processEvent (s.surroundings clockNow systemNow saves) event).engine = e' at htrans ⊢
  have hrisk := htrans.sameTerms.risk
  cases htrans with
  | held hterms hno hposition hcompleted hexit =>
    refine ⟨⟨?_, fun hopen => ?_⟩, ?_⟩
    · rw [hcompleted, hrisk]
      exact h.spaced.completed
    · dsimp only at hopen ⊢
      rw [hcompleted, hrisk]
      rcases hposition with hposition | ⟨hopen', -, hposition⟩
      · rw [hposition] at hopen ⊢
        exact h.spaced.position hopen
      · intro last hlast
        unfold TradePosition.Apart
        rw [hposition, hmark]
        exact h.spaced.position hopen' last hlast
    · rw [hcompleted, hexit]
      exact h.lastExit
  | entered hterms henters hposition hcompleted hexit =>
    obtain ⟨hwould, hover⟩ := TradeEngine.enters_iff.mp henters
    refine ⟨⟨?_, fun hopen last hlast => ?_⟩, ?_⟩
    · rw [hcompleted, hrisk]
      exact h.spaced.completed
    · dsimp only at hlast ⊢
      rw [hcompleted] at hlast
      have hsome : s.engine.completed ≠ [] := by
        intro hnil
        rw [hnil] at hlast
        cases hlast
      have hspace := (hwaits hwould hsome).resolve_right hover
      rw [h.lastExit last hlast] at hspace
      rw [hposition, hrisk]
      exact hspace
    · rw [hcompleted, hexit]
      exact h.lastExit
  | closed p reason hterms htakes hopen hdue hsaves hposition hcompleted hexit =>
    refine ⟨⟨?_, fun hopen' => ?_⟩, ?_⟩
    · rw [hcompleted, hrisk, List.isChain_append]
      refine ⟨h.spaced.completed, List.IsChain.singleton _, fun last hlast later hlater => ?_⟩
      obtain rfl := Option.some.inj hlater
      unfold TradePosition.Apart
      rw [show (p.settled s.engine.risk (s.engine.exitFill p.quantity event) reason).entryTime = p.entryTime from rfl,
        hdue.entryTime]
      exact h.spaced.position hopen last hlast
    · dsimp only at hopen'
      rw [hposition] at hopen'
      cases hopen'
    · intro last hlast
      dsimp only at hlast ⊢
      rw [hcompleted, List.getLast?_concat] at hlast
      obtain rfl := Option.some.inj hlast
      rw [hexit]
      rfl
  | unsaved p reason what hterms htakes hopen hdue hsaves hposition hcompleted hexit =>
    refine ⟨⟨?_, fun _ last hlast => ?_⟩, ?_⟩
    · rw [hcompleted, hrisk]
      exact h.spaced.completed
    · dsimp only at hlast ⊢
      rw [hcompleted] at hlast
      unfold TradePosition.Apart
      rw [hposition, hrisk,
        show (p.settled s.engine.risk (s.engine.exitFill p.quantity event) reason).entryTime = p.entryTime from rfl,
        hdue.entryTime]
      exact h.spaced.position hopen last hlast
    · rw [hcompleted, hexit]
      exact h.lastExit

/-- An event that does not wait is bought too early. -/
theorem not_spaced_event {s : EngineRun} (h : Timed s) {clockNow systemNow : TimePoint} {saves : Bool}
    {event : MarketEvent} (hnot : ¬ WaitsOut s (.event clockNow systemNow saves event)) :
    ¬ Spaced (s.step (.event clockNow systemNow saves event)) := by
  unfold WaitsOut at hnot
  simp only [Classical.not_imp, not_or] at hnot
  obtain ⟨hwould, hsome, hclose, hover⟩ := hnot
  have henters := TradeEngine.enters_iff.mpr ⟨hwould, hover⟩
  have htrans := TradeEngine.processEvent_transition s.engine (s.surroundings clockNow systemNow saves) event
  intro hspaced
  obtain ⟨last, hlast⟩ := Option.isSome_iff_exists.mp (List.getLast?_isSome.mpr hsome)
  have hposition := hspaced.position
  unfold step at hposition
  dsimp only at hposition
  generalize (s.engine.processEvent (s.surroundings clockNow systemNow saves) event).result = result at htrans
  generalize (s.engine.processEvent (s.surroundings clockNow systemNow saves) event).engine = e'
    at htrans hposition
  have hrisk := htrans.sameTerms.risk
  cases htrans with
  | held hterms hno => exact hno henters
  | entered hterms henters' hentered hcompleted =>
    rw [hentered, hcompleted, hrisk] at hposition
    have hspace := hposition rfl last hlast
    rw [h.lastExit last hlast] at hclose
    exact hclose hspace
  | closed p reason hterms htakes hopen => exact absurd (hopen.symm.trans henters.flat) (by decide)
  | unsaved p reason what hterms htakes hopen => exact absurd (hopen.symm.trans henters.flat) (by decide)

/-- Bought at 100, stopped out at second 3, and bought again by an event of
second 32 that is read at second 33. -/
def lateReading : List EngineAction :=
  [.event (seconds 1) (seconds 1) true (btcEvent 1 99), .event (seconds 2) (seconds 2) true (btcEvent 2 100),
   .event (seconds 3) (seconds 3) true (btcEvent 3 90), .event (seconds 31) (seconds 31) true (btcEvent 31 90),
   .event (seconds 33) (seconds 33) true (btcEvent 32 100), .event (seconds 34) (seconds 34) true (btcEvent 34 90)]

end EngineRun

end Sentum.Trader
