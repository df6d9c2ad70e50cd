import Sentum.Trader.Replay

/-!
# Engines that throw nothing

In a replay nobody asks for a close and the database takes every trade.  An
engine on a venue that takes orders then throws nothing: it never holds a
position that cannot be sold (`Steady.processEvent`).
-/

namespace Sentum.Trader.TradeEngine

open Sentum.Order Sentum.Market Sentum.Strategy Sentum.Risk Sentum.Execution

/-- **Invariant**: the venue takes orders, and an open position is more than nothing. -/
structure Steady (e : TradeEngine) : Prop where
  ready : e.venue.ready = true
  alive : e.venue.killed = false
  minimum : 0 < e.risk.minQuantity
  sellable : e.position.isOpen = true → 0 < e.position.quantity

theorem steady_init (symbol : String) (api : Bool) {risk : RiskConfig} (h : 0 < risk.minQuantity)
    (strategy : IStrategy) : Steady (init symbol api risk strategy) :=
  ⟨rfl, rfl, h, fun hopen => by cases hopen⟩

section
variable {e : TradeEngine} {price : ℚ} {now clockNow systemNow : TimePoint} {event : MarketEvent}

/-- The venue takes an order of more than nothing at a price. -/
theorem Steady.accepts (h : Steady e) (hprice : 0 < price) (side : Side) {quantity : ℚ} (hq : 0 < quantity)
    (now : TimePoint) (purpose : String) :
    (e.venue.setMarket price now).accepts (e.request side quantity now purpose) = true := by
  simp [SimulatedExecutionVenue.accepts, SimulatedExecutionVenue.setMarket, request, h.ready, h.alive, hq, hprice]

/-- The position is closed. -/
theorem Steady.closePosition (h : Steady e) (hopen : e.position.isOpen = true) (hprice : 0 < price)
    (reason : String) (now : TimePoint) :
    ∃ e', e.closePosition price reason now true = (e', .ok .sell) ∧ Steady e' := by
  have ha := h.accepts hprice .sell (h.sellable hopen) now "sell"
  have hfill := SimulatedExecutionVenue.filled_confirmed ha
  have hx : e.execute .sell e.position.quantity price now "sell" = _ := SimulatedExecutionVenue.submit_of_accepts ha
  unfold TradeEngine.closePosition
  rw [hx]
  dsimp only
  rw [hfill]
  exact ⟨_, rfl, h.ready, h.alive, h.minimum, fun hstill => by cases hstill⟩

/-- The flat branch. -/
theorem Steady.tryEntry (h : Steady e) (hflat : e.position.isOpen = false) (hprice : 0 < price)
    (now systemNow : TimePoint) (event : MarketEvent) :
    ∃ e' action, e.tryEntry price now systemNow event = (e', .ok action) ∧ Steady e' := by
  cases happroved : (RiskManager.approveEntry e.risk (e.strategy.onEvent event).2 price now e.lastExit
      systemNow).approved with
  | false =>
    refine ⟨_, _, tryEntry_not_approved happroved, h.ready, h.alive, h.minimum, fun hopen => ?_⟩
    exact absurd (hflat.symm.trans hopen) (by decide)
  | true =>
    have hsized : (RiskManager.entrySize e.risk price).approved = true :=
      (RiskManager.approveEntry_approved happroved).2 ▸ happroved
    have hq : 0 < (RiskManager.entrySize e.risk price).quantity :=
      lt_of_lt_of_le h.minimum (RiskManager.entrySize_approved hsized)
    have ha := h.accepts hprice .buy hq now "buy"
    have hx : e.execute .buy (RiskManager.entrySize e.risk price).quantity price now "buy" = _ :=
      SimulatedExecutionVenue.submit_of_accepts ha
    exact ⟨_, _, tryEntry_approved happroved hx (SimulatedExecutionVenue.filled_confirmed ha),
      h.ready, h.alive, h.minimum, fun _ => hq⟩

/-- **Step lemma**: nothing is thrown, and the invariant is kept. -/
theorem Steady.processEvent (h : Steady e) (clockNow systemNow : TimePoint) (event : MarketEvent) :
    ∃ action, (e.processEvent { clockNow, systemNow } event).result = .ok action ∧
      Steady (e.processEvent { clockNow, systemNow } event).engine := by
  cases ht : e.takes clockNow event with
  | false =>
    rw [processEvent_not_taken ht]
    exact ⟨_, rfl, h⟩
  | true =>
    have hprice := takes_price ht
    cases hopen : e.position.isOpen with
    | false =>
      have hlatest : Steady { e with latestPrice := event.price } := ⟨h.ready, h.alive, h.minimum, h.sellable⟩
      obtain ⟨e', action, htry, h'⟩ := hlatest.tryEntry hopen hprice event.timestamp systemNow event
      rw [processEvent_flat hopen ht, htry]
      exact ⟨action, rfl, h'⟩
    | true =>
      cases hx : (e.position.mark event.price).exitReason e.risk event.price event.timestamp with
      | none =>
        rw [processEvent_holds hopen ht hx]
        refine ⟨_, rfl, h.ready, h.alive, h.minimum, fun _ => ?_⟩
        exact (TradePosition.mark_quantity e.position event.price).symm ▸ h.sellable hopen
      | some reason =>
        have hmarked : Steady (holding e event) :=
          ⟨h.ready, h.alive, h.minimum,
            fun _ => (TradePosition.mark_quantity e.position event.price).symm ▸ h.sellable hopen⟩
        have hopen' : (holding e event).position.isOpen = true :=
          (TradePosition.mark_isOpen e.position event.price).trans hopen
        obtain ⟨e', hclose, h'⟩ := hmarked.closePosition hopen' hprice reason event.timestamp
        have hcall : e.processEvent { clockNow, systemNow } event =
            ⟨((holding e event).closePosition event.price reason event.timestamp true).1, {},
              ((holding e event).closePosition event.price reason event.timestamp true).2⟩ := by
          unfold TradeEngine.processEvent
          rw [if_pos ht]
          unfold evaluateAt
          rw [if_pos hopen, if_neg (by simp)]
          dsimp only
          rw [hx]
          rfl
        rw [hcall, hclose]
        exact ⟨_, rfl, h'⟩

end

end Sentum.Trader.TradeEngine
