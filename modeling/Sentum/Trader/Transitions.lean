import Sentum.Trader.Replay

/-!
# What a call of `process_event` does

`Transition` lists the ways in which a call can end, with all that it writes to
the position and the completed trades, and what led to it.  What holds along
runs of an engine is derived from it case by case, without another look at
`evaluate_at`.
-/

namespace Sentum.Trader

open Sentum.Order Sentum.Market Sentum.Strategy Sentum.Risk Sentum.Execution

namespace TradeEngine

/-- What no call changes. -/
structure SameTerms (e e' : TradeEngine) : Prop where
  symbol : e'.symbol = e.symbol
  risk : e'.risk = e.risk
  spread : e'.venue.spreadPercent = e.venue.spreadPercent
  slippage : e'.venue.slippagePercent = e.venue.slippagePercent

theorem SameTerms.rfl {e : TradeEngine} : SameTerms e e := ⟨.refl _, .refl _, .refl _, .refl _⟩

/-- The fill of a sell of `quantity` at this event. -/
def exitFill (e : TradeEngine) (quantity : ℚ) (event : MarketEvent) : Snapshot :=
  (e.venue.setMarket event.price event.timestamp).filled (e.request .sell quantity event.timestamp "sell")

/-- Why the position is to be closed, and the position as it is then. -/
inductive Due (e : TradeEngine) (s : Surroundings) (event : MarketEvent) : TradePosition → String → Prop
  /-- a request is honoured before the event's price is looked at -/
  | manual (hmanual : s.control.manualClose = true) : Due e s event e.position "manual_close"
  | rule {reason : String} (hmanual : s.control.manualClose = false)
      (hrule : (e.position.mark event.price).exitReason e.risk event.price event.timestamp = some reason) :
      Due e s event (e.position.mark event.price) reason

/-- All that an entry at this event needs. -/
structure Enters (e : TradeEngine) (s : Surroundings) (event : MarketEvent) : Prop where
  takes : e.takes s.clockNow event = true
  flat : e.position.isOpen = false
  unpaused : s.control.entriesPaused = false
  approved : (RiskManager.approveEntry e.risk (e.strategy.onEvent event).2 event.price event.timestamp e.lastExit
    s.systemNow).approved = true
  accepts : (e.venue.setMarket event.price event.timestamp).accepts (e.entryRequest event) = true

/-- How a call can end: the engine it leaves, and its result. -/
inductive Transition (e : TradeEngine) (s : Surroundings) (event : MarketEvent) :
    TradeEngine → Except String TradeAction → Prop
  /-- nothing happens to the position, or it is marked and stays open -/
  | held {e' : TradeEngine} {result : Except String TradeAction} (hterms : SameTerms e e')
      (hno : ¬ Enters e s event)
      (hposition : e'.position = e.position ∨
        e.position.isOpen = true ∧ e.takes s.clockNow event = true ∧
          e'.position = e.position.mark event.price)
      (hcompleted : e'.completed = e.completed) (hexit : e'.lastExit = e.lastExit) (hresult : result ≠ .ok .buy) :
      Transition e s event e' result
  | entered {e' : TradeEngine} (hterms : SameTerms e e') (henters : Enters e s event)
      (hposition : e'.position = e.entryAt (e.strategy.onEvent event).2 event)
      (hcompleted : e'.completed = e.completed) (hexit : e'.lastExit = e.lastExit) :
      Transition e s event e' (.ok .buy)
  | closed {e' : TradeEngine} (p : TradePosition) (reason : String) (hterms : SameTerms e e')
      (htakes : e.takes s.clockNow event = true) (hopen : e.position.isOpen = true)
      (hdue : Due e s event p reason) (hsaves : s.saves = true)
      (hposition : e'.position = { p.settled e.risk (e.exitFill p.quantity event) reason with isOpen := false })
      (hcompleted : e'.completed = e.completed ++ [p.settled e.risk (e.exitFill p.quantity event) reason])
      (hexit : e'.lastExit = event.timestamp) : Transition e s event e' (.ok .sell)
  /-- the database does not take the trade: the position stays open, with the exit's data -/
  | unsaved {e' : TradeEngine} (p : TradePosition) (reason what : String) (hterms : SameTerms e e')
      (htakes : e.takes s.clockNow event = true) (hopen : e.position.isOpen = true)
      (hdue : Due e s event p reason) (hsaves : s.saves = false)
      (hposition : e'.position = p.settled e.risk (e.exitFill p.quantity event) reason)
      (hcompleted : e'.completed = e.completed) (hexit : e'.lastExit = e.lastExit) :
      Transition e s event e' (.error what)

section
variable {e : TradeEngine} {s : Surroundings} {event : MarketEvent}

theorem Enters.sized (h : Enters e s event) :
    (RiskManager.entrySize e.risk event.price).approved = true ∧
      0 < (RiskManager.entrySize e.risk event.price).quantity := by
  have haccepts := h.accepts
  simp only [SimulatedExecutionVenue.accepts, Bool.and_eq_true, decide_eq_true_eq] at haccepts
  exact ⟨(RiskManager.approveEntry_approved h.approved).2 ▸ h.approved, haccepts.1.2⟩

/-- Unless a close is requested, an exit rule is met. -/
theorem Due.ruled {p : TradePosition} {reason : String} (h : Due e s event p reason)
    (hmanual : s.control.manualClose = false) : p = e.position.mark event.price ∧
      (e.position.mark event.price).exitReason e.risk event.price event.timestamp = some reason := by
  cases h with
  | manual hrequest => exact absurd (hrequest.symm.trans hmanual) (by decide)
  | rule _ hrule => exact ⟨rfl, hrule⟩

theorem Transition.sameTerms {e' : TradeEngine} {result : Except String TradeAction}
    (h : Transition e s event e' result) : SameTerms e e' := by
  cases h with
  | held hterms => exact hterms
  | entered hterms => exact hterms
  | closed p reason hterms => exact hterms
  | unsaved p reason what hterms => exact hterms

/-- `close_position` of a position that is due. -/
theorem closePosition_transition {p : TradePosition} {reason : String} (htakes : e.takes s.clockNow event = true)
    (hopen : e.position.isOpen = true) (hdue : Due e s event p reason) :
    Transition e s event
      (({ e with latestPrice := event.price, position := p } : TradeEngine).closePosition event.price reason
        event.timestamp s.saves).1
      (({ e with latestPrice := event.price, position := p } : TradeEngine).closePosition event.price reason
        event.timestamp s.saves).2 := by
  cases ha : (e.venue.setMarket event.price event.timestamp).accepts
      (e.request .sell p.quantity event.timestamp "sell") with
  | false =>
    obtain ⟨what, hs⟩ := SimulatedExecutionVenue.submit_of_not_accepts ha
    have hx : ({ e with latestPrice := event.price, position := p } : TradeEngine).execute .sell p.quantity
        event.price event.timestamp "sell" = (e.venue.setMarket event.price event.timestamp, .error what) := hs
    simp only [closePosition, hx]
    refine .held ⟨rfl, rfl, rfl, rfl⟩ (fun h => ?_) ?_ rfl rfl (fun h => by cases h)
    · exact absurd (hopen.symm.trans h.flat) (by decide)
    cases hdue with
    | manual hmanual => exact .inl rfl
    | rule hmanual hrule => exact .inr ⟨hopen, htakes, rfl⟩
  | true =>
    have hconfirmed : (e.exitFill p.quantity event).exchangeConfirmedFill = true :=
      SimulatedExecutionVenue.filled_confirmed ha
    have hx : ({ e with latestPrice := event.price, position := p } : TradeEngine).execute .sell p.quantity
        event.price event.timestamp "sell" =
          ({ e.venue.setMarket event.price event.timestamp with nextId := e.venue.nextId + 1 },
            .ok (e.exitFill p.quantity event)) := SimulatedExecutionVenue.submit_of_accepts ha
    simp only [closePosition, hx, hconfirmed, Bool.not_true, Bool.false_eq_true, if_false]
    cases hsaves : s.saves with
    | true => exact .closed p reason ⟨rfl, rfl, rfl, rfl⟩ htakes hopen hdue hsaves rfl rfl rfl
    | false => exact .unsaved p reason _ ⟨rfl, rfl, rfl, rfl⟩ htakes hopen hdue hsaves rfl rfl rfl

/-- The flat branch. -/
theorem tryEntry_transition (htakes : e.takes s.clockNow event = true) (hflat : e.position.isOpen = false)
    (hpaused : s.control.entriesPaused = false) :
    Transition e s event
      (({ e with latestPrice := event.price } : TradeEngine).tryEntry event.price event.timestamp s.systemNow event).1
      (({ e with latestPrice := event.price } : TradeEngine).tryEntry event.price event.timestamp s.systemNow
        event).2 := by
  cases happroved : (RiskManager.approveEntry e.risk (e.strategy.onEvent event).2 event.price event.timestamp
      e.lastExit s.systemNow).approved with
  | false =>
    have htry : ({ e with latestPrice := event.price } : TradeEngine).tryEntry event.price event.timestamp
        s.systemNow event = _ := tryEntry_not_approved happroved
    rw [htry]
    refine .held ⟨rfl, rfl, rfl, rfl⟩ (fun h => ?_) (.inl rfl) rfl rfl (fun h => by cases h)
    exact absurd (happroved.symm.trans h.approved) (by decide)
  | true =>
    cases ha : (e.venue.setMarket event.price event.timestamp).accepts (e.entryRequest event) with
    | false =>
      obtain ⟨hbuy, hsize⟩ := RiskManager.approveEntry_approved happroved
      obtain ⟨what, hs⟩ := SimulatedExecutionVenue.submit_of_not_accepts ha
      rw [hsize] at happroved
      unfold tryEntry
      simp only [hbuy, ne_eq, not_true_eq_false, if_false, hsize, happroved, Bool.not_true, Bool.false_eq_true]
      have hx : ({ e with latestPrice := event.price, strategy := (e.strategy.onEvent event).1 } :
          TradeEngine).execute .buy (RiskManager.entrySize e.risk event.price).quantity event.price event.timestamp
          "buy" = (e.venue.setMarket event.price event.timestamp, .error what) := hs
      rw [hx]
      refine .held ⟨rfl, rfl, rfl, rfl⟩ (fun h => ?_) (.inl rfl) rfl rfl (fun h => by cases h)
      exact absurd (ha.symm.trans h.accepts) (by decide)
    | true =>
      have hconfirmed := SimulatedExecutionVenue.filled_confirmed ha
      have hx : ({ e with latestPrice := event.price } : TradeEngine).execute .buy
          (RiskManager.entrySize e.risk event.price).quantity event.price event.timestamp "buy" = _ :=
        SimulatedExecutionVenue.submit_of_accepts ha
      have htry : ({ e with latestPrice := event.price } : TradeEngine).tryEntry event.price event.timestamp
          s.systemNow event = _ := tryEntry_approved happroved hx hconfirmed
      rw [htry]
      exact .entered ⟨rfl, rfl, rfl, rfl⟩ ⟨htakes, hflat, hpaused, happroved, ha⟩ rfl rfl rfl

/-- A call that takes the event consumes a close request. -/
theorem processEvent_control (htakes : e.takes s.clockNow event = true) :
    (e.processEvent s event).control = s.control.consumed := by
  unfold processEvent
  rw [if_pos htakes]
  unfold evaluateAt
  split
  · split
    · rfl
    · dsimp only
      split <;> rfl
  · split <;> rfl

/-- **One call of `process_event`.** -/
theorem processEvent_transition (e : TradeEngine) (s : Surroundings) (event : MarketEvent) :
    Transition e s event (e.processEvent s event).engine (e.processEvent s event).result := by
  unfold processEvent
  split
  · next htakes =>
    unfold evaluateAt
    cases hopen : e.position.isOpen with
    | false =>
      rw [if_neg (by simp)]
      split
      · next hpaused =>
        refine .held ⟨rfl, rfl, rfl, rfl⟩ (fun h => ?_) (.inl rfl) rfl rfl (fun h => by cases h)
        exact absurd (hpaused.symm.trans h.unpaused) (by decide)
      · next hpaused => exact tryEntry_transition htakes hopen (by simpa using hpaused)
    | true =>
      rw [if_pos (by simp)]
      cases hmanual : s.control.manualClose with
      | true =>
        rw [if_pos (by simp)]
        exact closePosition_transition htakes hopen (.manual hmanual)
      | false =>
        rw [if_neg (by simp)]
        simp only
        split
        · next reason hrule => exact closePosition_transition htakes hopen (.rule hmanual hrule)
        · refine .held ⟨rfl, rfl, rfl, rfl⟩ (fun h => ?_) (.inr ⟨hopen, htakes, rfl⟩) rfl rfl (fun h => by cases h)
          exact absurd (hopen.symm.trans h.flat) (by decide)
  · next htakes =>
    exact .held ⟨rfl, rfl, rfl, rfl⟩ (fun h => htakes h.takes) (.inl rfl) rfl rfl (fun h => by cases h)

/-! ## The symbol of the trades -/

theorem mark_symbol (p : TradePosition) (price : ℚ) : (p.mark price).symbol = p.symbol := by
  unfold TradePosition.mark TradePosition.lowered TradePosition.raised
  repeat' split
  all_goals rfl

/-- **Invariant**: what the engine trades is its symbol. -/
structure Labelled (e : TradeEngine) : Prop where
  position : e.position.isOpen = true → e.position.symbol = e.symbol
  completed : ∀ t ∈ e.completed, t.symbol = e.symbol

theorem labelled_init (symbol : String) (api : Bool) (risk : RiskConfig) (strategy : IStrategy) :
    Labelled (init symbol api risk strategy) :=
  ⟨nofun, fun _ ht => absurd ht List.not_mem_nil⟩

theorem Due.symbol {p : TradePosition} {reason : String} (h : Due e s event p reason) :
    p.symbol = e.position.symbol := by
  cases h with
  | manual => rfl
  | rule => exact mark_symbol _ _

theorem Transition.labelled {e' : TradeEngine} {result : Except String TradeAction}
    (h : Transition e s event e' result) (hl : Labelled e) : Labelled e' := by
  have hsymbol := h.sameTerms.symbol
  cases h with
  | held _ _ hposition hcompleted =>
    refine ⟨fun hopen => ?_, fun t ht => ?_⟩
    · rcases hposition with hsame | ⟨hopen₀, -, hmark⟩
      · rw [hsymbol, hsame]
        exact hl.position (hsame ▸ hopen)
      · rw [hsymbol, hmark, mark_symbol]
        exact hl.position hopen₀
    · rw [hsymbol]
      exact hl.completed t (hcompleted ▸ ht)
  | entered _ _ hposition hcompleted =>
    refine ⟨fun _ => ?_, fun t ht => ?_⟩
    · rw [hsymbol, hposition]
      rfl
    · rw [hsymbol]
      exact hl.completed t (hcompleted ▸ ht)
  | closed p reason _ _ hopen hdue _ hposition hcompleted =>
    refine ⟨fun hopen' => ?_, fun t ht => ?_⟩
    · rw [hposition] at hopen'
      cases hopen'
    · rw [hcompleted] at ht
      rw [hsymbol]
      rcases List.mem_append.mp ht with ht | ht
      · exact hl.completed t ht
      · rw [List.mem_singleton.mp ht]
        exact hdue.symbol.trans (hl.position hopen)
  | unsaved p reason what _ _ hopen hdue _ hposition hcompleted =>
    refine ⟨fun _ => ?_, fun t ht => ?_⟩
    · rw [hsymbol, hposition]
      exact hdue.symbol.trans (hl.position hopen)
    · rw [hsymbol]
      exact hl.completed t (hcompleted ▸ ht)

end

end TradeEngine

end Sentum.Trader
