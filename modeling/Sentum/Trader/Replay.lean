import Sentum.Trader.TradeEngine

/-!
# Replay

A replay feeds recorded events to an engine whose clock is the
`ReplayClock`.  One clock is left that it does not control: the one
`approve_entry` reads.  An event comes here with what `system_clock::now`
returns while it is processed, and `scheduleFree_iff` says on which data the
completed trades do not depend on those values: on data without a round trip,
where there are none.
-/

namespace Sentum.Trader

open Sentum.Order Sentum.Market Sentum.Strategy Sentum.Risk Sentum.Execution

/-- `advance_to` and `process_event` for every event, up to an exception. -/
def replay : ReplayClock → TradeEngine → List (MarketEvent × TimePoint) → TradeEngine
  | _, e, [] => e
  | clock, e, (event, systemNow) :: rest =>
    match clock.advanceTo event.timestamp with
    | .error _ => e
    | .ok clock =>
      let processed := e.processEvent { clockNow := clock.now, systemNow } event
      match processed.result with
      | .error _ => processed.engine
      | .ok _ => replay clock processed.engine rest

section
variable {clock clock' : ReplayClock} {e e' : TradeEngine} {event : MarketEvent} {systemNow : TimePoint}
  {rest : List (MarketEvent × TimePoint)}

/-- The clock refuses the event: the replay ends there. -/
theorem replay_stops {what : String} (h : clock.advanceTo event.timestamp = .error what) :
    replay clock e ((event, systemNow) :: rest) = e := by
  unfold replay
  rw [h]

/-- The event is processed without an exception. -/
theorem replay_goes_on {control : RuntimeControl} {action : TradeAction}
    (h : clock.advanceTo event.timestamp = .ok clock')
    (hp : e.processEvent { clockNow := clock'.now, systemNow } event = ⟨e', control, .ok action⟩) :
    replay clock e ((event, systemNow) :: rest) = replay clock' e' rest := by
  conv_lhs => unfold replay
  rw [h]
  simp only [hp]

end

/-- Whatever the system clock shows, the completed trades are the same. -/
def ScheduleFree (clock : ReplayClock) (e : TradeEngine) (events : List MarketEvent) : Prop :=
  ∀ xs ys : List (MarketEvent × TimePoint), xs.map Prod.fst = events → ys.map Prod.fst = events →
    (replay clock e xs).completed = (replay clock e ys).completed

/-! ## Round trips in the data -/

namespace TradeEngine

/-- The position meets an exit rule at one of the events. -/
def leaves (e : TradeEngine) : ReplayClock → TradePosition → List MarketEvent → Bool
  | _, _, [] => false
  | clock, p, event :: rest =>
    match clock.advanceTo event.timestamp with
    | .error _ => false
    | .ok clock =>
      if e.takes clock.now event then
        ((p.mark event.price).exitReason e.risk event.price event.timestamp).isSome ||
          e.leaves clock (p.mark event.price) rest
      else e.leaves clock p rest

/-- The request for an entry at this event. -/
def entryRequest (e : TradeEngine) (event : MarketEvent) : Request :=
  e.request .buy (RiskManager.entrySize e.risk event.price).quantity event.timestamp "buy"

/-- The position an approved signal opens at this event. -/
def entryAt (e : TradeEngine) (signal : StrategySignal) (event : MarketEvent) : TradePosition :=
  .entered e.risk e.symbol e.source signal (RiskManager.entrySize e.risk event.price)
    ((e.venue.setMarket event.price event.timestamp).filled (e.entryRequest event))

/-- The strategy, fed all events so far, buys at an event whose price passes
the sizing checks, and the position entered there meets an exit rule later. -/
def roundTrip (e : TradeEngine) : ReplayClock → IStrategy → List MarketEvent → Bool
  | _, _, [] => false
  | clock, strategy, event :: rest =>
    match clock.advanceTo event.timestamp with
    | .error _ => false
    | .ok clock =>
      if e.takes clock.now event then
        let (strategy, signal) := strategy.onEvent event
        decide (signal.action = .buy) && (RiskManager.entrySize e.risk event.price).approved &&
            e.leaves clock (e.entryAt signal event) rest ||
          e.roundTrip clock strategy rest
      else e.roundTrip clock strategy rest

/-! ## One event -/

/-- The engine after events that have only moved its strategy. -/
def waiting (e : TradeEngine) (strategy : IStrategy) (price : ℚ) : TradeEngine :=
  { e with strategy, latestPrice := price }

/-- The engine that has entered at this event. -/
def entering (e : TradeEngine) (strategy : IStrategy) (signal : StrategySignal) (event : MarketEvent) :
    TradeEngine :=
  { e with
    strategy
    latestPrice := event.price
    venue := { e.venue.setMarket event.price event.timestamp with nextId := e.venue.nextId + 1 }
    position := e.entryAt signal event }

/-- The engine that holds on to its position. -/
def holding (e : TradeEngine) (event : MarketEvent) : TradeEngine :=
  { e with latestPrice := event.price, position := e.position.mark event.price }

/-- A fresh engine: flat, without a trade, on a venue that takes orders. -/
structure Idle (e : TradeEngine) : Prop where
  flat : e.position.isOpen = false
  untraded : e.completed = []
  noExit : e.lastExit = 0
  ready : e.venue.ready = true
  alive : e.venue.killed = false
  valid : Valid e.risk

theorem idle_init {document : Json} {config : RiskConfig} (h : loadRiskConfig document = .ok config)
    (symbol : String) (api : Bool) (strategy : IStrategy) : Idle (init symbol api config strategy) :=
  ⟨rfl, rfl, rfl, rfl, rfl, loadRiskConfig_valid h⟩

theorem takes_price {e : TradeEngine} {now : TimePoint} {event : MarketEvent} (h : e.takes now event = true) :
    0 < event.price := by
  simp only [takes, Bool.and_eq_true, decide_eq_true_eq] at h
  exact h.1.2

theorem processEvent_not_taken {e : TradeEngine} {s : Surroundings} {event : MarketEvent}
    (h : e.takes s.clockNow event = false) : e.processEvent s event = ⟨e, s.control, .ok .none⟩ := by
  simp only [processEvent, h, Bool.false_eq_true, if_false]

section
variable {e : TradeEngine} {price : ℚ} {now clockNow systemNow : TimePoint} {event : MarketEvent}

theorem tryEntry_not_approved
    (h : (RiskManager.approveEntry e.risk (e.strategy.onEvent event).2 price now e.lastExit
      systemNow).approved = false) :
    e.tryEntry price now systemNow event = ({ e with strategy := (e.strategy.onEvent event).1 }, .ok .none) := by
  unfold tryEntry
  simp only
  split
  · rfl
  · rw [h]
    rfl

theorem tryEntry_approved {venue : SimulatedExecutionVenue} {fill : Snapshot}
    (h : (RiskManager.approveEntry e.risk (e.strategy.onEvent event).2 price now e.lastExit
      systemNow).approved = true)
    (hx : e.execute .buy (RiskManager.entrySize e.risk price).quantity price now "buy" = (venue, .ok fill))
    (hfill : fill.exchangeConfirmedFill = true) :
    e.tryEntry price now systemNow event =
      ({ e with
          strategy := (e.strategy.onEvent event).1
          venue
          position := .entered e.risk e.symbol e.source (e.strategy.onEvent event).2
            (RiskManager.entrySize e.risk price) fill }, .ok .buy) := by
  obtain ⟨hbuy, hsize⟩ := RiskManager.approveEntry_approved h
  rw [hsize] at h
  unfold tryEntry
  simp only [hbuy, ne_eq, not_true_eq_false, if_false, hsize, h, Bool.not_true, Bool.false_eq_true]
  have hx' : ({ e with strategy := (e.strategy.onEvent event).1 } : TradeEngine).execute .buy
      (RiskManager.entrySize e.risk price).quantity price now "buy" = (venue, .ok fill) := hx
  rw [hx']
  simp only [hfill, Bool.not_true, Bool.false_eq_true, if_false]
  rfl

theorem processEvent_flat (hflat : e.position.isOpen = false) (ht : e.takes clockNow event = true) :
    e.processEvent { clockNow, systemNow } event =
      ⟨(({ e with latestPrice := event.price } : TradeEngine).tryEntry event.price event.timestamp systemNow event).1,
        {}, (({ e with latestPrice := event.price } : TradeEngine).tryEntry event.price event.timestamp systemNow
          event).2⟩ := by
  unfold processEvent
  rw [if_pos ht]
  unfold evaluateAt
  rw [if_neg (by simp [hflat]), if_neg (by simp)]
  rfl

/-- An open position whose exit rules are not met. -/
theorem processEvent_holds (hopen : e.position.isOpen = true) (ht : e.takes clockNow event = true)
    (hx : (e.position.mark event.price).exitReason e.risk event.price event.timestamp = none) :
    e.processEvent { clockNow, systemNow } event = ⟨holding e event, {}, .ok .none⟩ := by
  unfold processEvent
  rw [if_pos ht]
  unfold evaluateAt
  rw [if_pos hopen, if_neg (by simp)]
  simp only [hx]
  rfl

variable {strategy : IStrategy} {last : ℚ}

/-- Flat, and the entry is not approved. -/
theorem processEvent_waits (hidle : Idle e) (ht : e.takes clockNow event = true)
    (hno : (RiskManager.approveEntry e.risk (strategy.onEvent event).2 event.price event.timestamp e.lastExit
      systemNow).approved = false) :
    (waiting e strategy last).processEvent { clockNow, systemNow } event =
      ⟨waiting e (strategy.onEvent event).1 event.price, {}, .ok .none⟩ := by
  have hno' : (RiskManager.approveEntry (waiting e strategy event.price).risk
      ((waiting e strategy event.price).strategy.onEvent event).2 event.price event.timestamp
      (waiting e strategy event.price).lastExit systemNow).approved = false := hno
  have hflat : (waiting e strategy last).position.isOpen = false := hidle.flat
  have htakes : (waiting e strategy last).takes clockNow event = true := ht
  rw [processEvent_flat hflat htakes]
  have htry := tryEntry_not_approved hno'
  exact congrArg (fun r : TradeEngine × Except String TradeAction => Processed.mk r.1 {} r.2) htry

/-- Flat, and the entry is approved. -/
theorem processEvent_enters (hidle : Idle e) (ht : e.takes clockNow event = true)
    (hyes : (RiskManager.approveEntry e.risk (strategy.onEvent event).2 event.price event.timestamp e.lastExit
      systemNow).approved = true) :
    (waiting e strategy last).processEvent { clockNow, systemNow } event =
      ⟨entering e (strategy.onEvent event).1 (strategy.onEvent event).2 event, {}, .ok .buy⟩ := by
  have hsized : (RiskManager.entrySize e.risk event.price).approved = true :=
    (RiskManager.approveEntry_approved hyes).2 ▸ hyes
  have hq : 0 < (RiskManager.entrySize e.risk event.price).quantity :=
    lt_of_lt_of_le hidle.valid.filters.2.2.1 (RiskManager.entrySize_approved hsized)
  have hacc : (e.venue.setMarket event.price event.timestamp).accepts (e.entryRequest event) = true := by
    simp [SimulatedExecutionVenue.accepts, SimulatedExecutionVenue.setMarket, entryRequest, request, hidle.ready,
      hidle.alive, hq, takes_price ht]
  have hfill := SimulatedExecutionVenue.filled_confirmed hacc
  have hsub := SimulatedExecutionVenue.submit_of_accepts hacc
  have hyes' : (RiskManager.approveEntry (waiting e strategy event.price).risk
      ((waiting e strategy event.price).strategy.onEvent event).2 event.price event.timestamp
      (waiting e strategy event.price).lastExit systemNow).approved = true := hyes
  have hflat : (waiting e strategy last).position.isOpen = false := hidle.flat
  have htakes : (waiting e strategy last).takes clockNow event = true := ht
  rw [processEvent_flat hflat htakes]
  have htry := tryEntry_approved hyes' hsub hfill
  exact congrArg (fun r : TradeEngine × Except String TradeAction => Processed.mk r.1 {} r.2) htry

end

/-! ## A whole replay -/

/-- Completed trades stay completed. -/
theorem completed_le_processEvent (e : TradeEngine) (s : Surroundings) (event : MarketEvent) :
    e.completed.length ≤ (e.processEvent s event).engine.completed.length := by
  have heff := processEvent_effect e s event
  generalize e.closes s event = closes at heff
  generalize (e.processEvent s event).engine = e' at heff ⊢
  cases heff with
  | kept hbooks => exact le_of_eq (congrArg List.length hbooks.completed.symm)
  | entered hbooks => exact le_of_eq (congrArg List.length hbooks.completed.symm)
  | closed p hopen hsaves hprofit hcount hcompleted =>
    rw [hcompleted, List.length_append]
    omega
  | bookedOnly p hopen hsaves hprofit hcount hcompleted =>
    exact le_of_eq (congrArg List.length hcompleted.symm)

theorem completed_le_replay (clock : ReplayClock) (e : TradeEngine) (xs : List (MarketEvent × TimePoint)) :
    e.completed.length ≤ (replay clock e xs).completed.length := by
  induction xs generalizing clock e with
  | nil => exact Nat.le_refl _
  | cons x rest ih =>
    obtain ⟨event, systemNow⟩ := x
    unfold replay
    cases clock.advanceTo event.timestamp with
    | error what => exact Nat.le_refl _
    | ok clock' =>
      have hone := completed_le_processEvent e { clockNow := clock'.now, systemNow } event
      simp only
      split
      · exact hone
      · exact Nat.le_trans hone (ih _ _)

/-- An open position of an engine on a venue that takes its sell. -/
structure Holding (e : TradeEngine) : Prop where
  isOpen : e.position.isOpen = true
  quantity : 0 < e.position.quantity
  ready : e.venue.ready = true
  alive : e.venue.killed = false

theorem Holding.holding {e : TradeEngine} (h : Holding e) (event : MarketEvent) : Holding (holding e event) :=
  ⟨(TradePosition.mark_isOpen _ _).trans h.isOpen,
    (TradePosition.mark_quantity e.position event.price).symm ▸ h.quantity, h.ready, h.alive⟩

theorem Holding.entering {e : TradeEngine} (h : Idle e) (strategy : IStrategy) (signal : StrategySignal)
    (event : MarketEvent) (hsize : (RiskManager.entrySize e.risk event.price).approved = true) :
    Holding (entering e strategy signal event) :=
  ⟨rfl, lt_of_lt_of_le h.valid.filters.2.2.1 (RiskManager.entrySize_approved hsize), h.ready, h.alive⟩

/-- Only the symbol and the risk of the engine decide where a position is left. -/
theorem leaves_congr (e' e : TradeEngine) (hsymbol : e'.symbol = e.symbol) (hrisk : e'.risk = e.risk)
    (clock : ReplayClock) (p : TradePosition) (events : List MarketEvent) :
    e'.leaves clock p events = e.leaves clock p events := by
  induction events generalizing clock p with
  | nil => rfl
  | cons event rest ih =>
    have htakes : ∀ now, e'.takes now event = e.takes now event := fun now => by
      simp only [takes, hsymbol, hrisk]
    unfold leaves
    cases clock.advanceTo event.timestamp with
    | error what => rfl
    | ok clock' => simp only [htakes, hrisk, ih]

theorem holding_leaves (e : TradeEngine) (last : MarketEvent) (clock : ReplayClock) (p : TradePosition)
    (events : List MarketEvent) : (e.holding last).leaves clock p events = e.leaves clock p events :=
  leaves_congr (e.holding last) e rfl rfl clock p events

theorem entering_leaves (e : TradeEngine) (strategy : IStrategy) (signal : StrategySignal) (last : MarketEvent)
    (clock : ReplayClock) (p : TradePosition) (events : List MarketEvent) :
    (e.entering strategy signal last).leaves clock p events = e.leaves clock p events :=
  leaves_congr (e.entering strategy signal last) e rfl rfl clock p events

/-- Without an exit ahead nothing more is completed, whatever the clock shows. -/
theorem replay_of_not_leaves {clock : ReplayClock} {e : TradeEngine} (hh : Holding e)
    (xs : List (MarketEvent × TimePoint)) (h : e.leaves clock e.position (xs.map Prod.fst) = false) :
    (replay clock e xs).completed = e.completed := by
  induction xs generalizing clock e with
  | nil => rfl
  | cons x rest ih =>
    obtain ⟨event, systemNow⟩ := x
    simp only [List.map_cons, leaves] at h
    cases hclock : clock.advanceTo event.timestamp with
    | error what => rw [replay_stops hclock]
    | ok clock' =>
      rw [hclock] at h
      simp only at h
      cases ht : e.takes clock'.now event with
      | false =>
        simp only [ht, Bool.false_eq_true, if_false] at h
        rw [replay_goes_on hclock (processEvent_not_taken ht)]
        exact ih hh h
      | true =>
        simp only [ht, if_true, Bool.or_eq_false_iff] at h
        obtain ⟨hx, hrest⟩ := h
        rw [replay_goes_on hclock (processEvent_holds hh.isOpen ht (by simpa using hx))]
        exact ih (hh.holding event) ((holding_leaves e event _ _ _).trans hrest)

/-- A held position that meets an exit rule is closed. -/
theorem closes_of_exitReason {e : TradeEngine} (hh : Holding e) {s : Surroundings} {event : MarketEvent}
    {reason : String} (ht : e.takes s.clockNow event = true)
    (hx : (e.position.mark event.price).exitReason e.risk event.price event.timestamp = some reason) :
    e.closes s event = true := by
  simp [closes, ht, hh.isOpen, exits, hx, sells, SimulatedExecutionVenue.accepts,
    SimulatedExecutionVenue.setMarket, request, hh.ready, hh.alive, hh.quantity, takes_price ht]

/-- A close that the database takes completes a trade. -/
theorem completed_lt_of_closes {e : TradeEngine} {s : Surroundings} {event : MarketEvent}
    (hcloses : e.closes s event = true) (hsaves : s.saves = true) :
    e.completed.length < (e.processEvent s event).engine.completed.length := by
  have heff := processEvent_effect e s event
  rw [hcloses, hsaves] at heff
  generalize (e.processEvent s event).engine = e' at heff ⊢
  cases heff with
  | closed p hopen hsaves hprofit hcount hcompleted =>
    rw [hcompleted, List.length_append]
    exact Nat.lt_succ_self _
  | bookedOnly p hopen hsaves => cases hsaves

/-- With an exit ahead a trade is completed, whatever the clock shows. -/
theorem replay_of_leaves {clock : ReplayClock} {e : TradeEngine} (hh : Holding e)
    (xs : List (MarketEvent × TimePoint)) (h : e.leaves clock e.position (xs.map Prod.fst) = true) :
    e.completed.length < (replay clock e xs).completed.length := by
  induction xs generalizing clock e with
  | nil => cases h
  | cons x rest ih =>
    obtain ⟨event, systemNow⟩ := x
    simp only [List.map_cons, leaves] at h
    cases hclock : clock.advanceTo event.timestamp with
    | error what =>
      rw [hclock] at h
      cases h
    | ok clock' =>
      rw [hclock] at h
      simp only at h
      cases ht : e.takes clock'.now event with
      | false =>
        simp only [ht, Bool.false_eq_true, if_false] at h
        rw [replay_goes_on hclock (processEvent_not_taken ht)]
        exact ih hh h
      | true =>
        simp only [ht, if_true] at h
        cases hx : (e.position.mark event.price).exitReason e.risk event.price event.timestamp with
        | none =>
          have hrest : e.leaves clock' (e.position.mark event.price) (rest.map Prod.fst) = true := by
            rw [hx] at h
            simpa using h
          rw [replay_goes_on hclock (processEvent_holds hh.isOpen ht hx)]
          exact ih (hh.holding event) ((holding_leaves e event _ _ _).trans hrest)
        | some reason =>
          have hcloses : e.closes { clockNow := clock'.now, systemNow } event = true :=
            closes_of_exitReason hh ht hx
          have hone := completed_lt_of_closes hcloses rfl
          unfold replay
          rw [hclock]
          simp only
          split
          · exact hone
          · exact Nat.lt_of_lt_of_le hone (completed_le_replay _ _ rest)

/-- Data without a round trip complete no trade. -/
theorem replay_of_no_roundTrip {clock : ReplayClock} {e : TradeEngine} (hidle : Idle e) (strategy : IStrategy)
    (last : ℚ) (xs : List (MarketEvent × TimePoint))
    (h : e.roundTrip clock strategy (xs.map Prod.fst) = false) :
    (replay clock (waiting e strategy last) xs).completed = [] := by
  induction xs generalizing clock strategy last with
  | nil => exact hidle.untraded
  | cons x rest ih =>
    obtain ⟨event, systemNow⟩ := x
    simp only [List.map_cons, roundTrip] at h
    cases hclock : clock.advanceTo event.timestamp with
    | error what =>
      rw [replay_stops hclock]
      exact hidle.untraded
    | ok clock' =>
      rw [hclock] at h
      simp only at h
      cases ht : e.takes clock'.now event with
      | false =>
        have ht' : (waiting e strategy last).takes clock'.now event = false := ht
        simp only [ht, Bool.false_eq_true, if_false] at h
        rw [replay_goes_on hclock (processEvent_not_taken ht')]
        exact ih strategy last h
      | true =>
        simp only [ht, if_true, Bool.or_eq_false_iff, Bool.and_eq_false_iff] at h
        obtain ⟨hentry, hrest⟩ := h
        cases happ : (RiskManager.approveEntry e.risk (strategy.onEvent event).2 event.price event.timestamp
            e.lastExit systemNow).approved with
        | false =>
          rw [replay_goes_on hclock (processEvent_waits hidle ht happ)]
          exact ih _ _ hrest
        | true =>
          rw [replay_goes_on hclock (processEvent_enters hidle ht happ)]
          obtain ⟨hbuy, hsize⟩ := RiskManager.approveEntry_approved happ
          rw [hsize] at happ
          have hstuck : e.leaves clock' (e.entryAt (strategy.onEvent event).2 event) (rest.map Prod.fst) = false := by
            rcases hentry with (hno | hno) | hno
            · simp [hbuy] at hno
            · rw [happ] at hno
              cases hno
            · exact hno
          have hholding := Holding.entering hidle (strategy.onEvent event).1 (strategy.onEvent event).2 event happ
          have hnone := replay_of_not_leaves hholding rest ((entering_leaves e _ _ _ _ _ _).trans hstuck)
          exact hnone.trans hidle.untraded

/-! ## Two schedules -/

/-- A time at which the event is stale. -/
def staleAt (e : TradeEngine) (event : MarketEvent) : TimePoint :=
  event.timestamp + milliseconds e.risk.maxDataAgeMs + 1

/-- The system clock of a replay of old records. -/
def late (e : TradeEngine) (event : MarketEvent) : MarketEvent × TimePoint := (event, e.staleAt event)

/-- The system clock of a run along with the market. -/
def prompt (event : MarketEvent) : MarketEvent × TimePoint := (event, event.timestamp)

@[simp] theorem map_fst_late (e : TradeEngine) (events : List MarketEvent) :
    (events.map e.late).map Prod.fst = events := by
  simp [late, Function.comp_def]

@[simp] theorem map_fst_prompt (events : List MarketEvent) : (events.map prompt).map Prod.fst = events := by
  simp [prompt, Function.comp_def]

/-- A late replay refuses every entry. -/
theorem staleAt_refused (e : TradeEngine) (signal : StrategySignal) (event : MarketEvent) :
    (RiskManager.approveEntry e.risk signal event.price event.timestamp e.lastExit (e.staleAt event)).approved
      = false := by
  refine RiskManager.approveEntry_stale ?_
  unfold staleAt
  omega

/-- A late replay of a flat engine completes no trade. -/
theorem replay_late {clock : ReplayClock} {e : TradeEngine} (hidle : Idle e) (strategy : IStrategy)
    (last : ℚ) (events : List MarketEvent) :
    (replay clock (waiting e strategy last) (events.map e.late)).completed = [] := by
  induction events generalizing clock strategy last with
  | nil => exact hidle.untraded
  | cons event rest ih =>
    rw [List.map_cons, late]
    cases hclock : clock.advanceTo event.timestamp with
    | error what =>
      rw [replay_stops hclock]
      exact hidle.untraded
    | ok clock' =>
      cases ht : e.takes clock'.now event with
      | false =>
        have ht' : (waiting e strategy last).takes clock'.now event = false := ht
        rw [replay_goes_on hclock (processEvent_not_taken ht')]
        exact ih strategy last
      | true =>
        rw [replay_goes_on hclock (processEvent_waits hidle ht (staleAt_refused e _ event))]
        exact ih _ _

/-- Data with a round trip complete a trade when the clock is late up to the
entry and prompt from there on. -/
theorem exists_replay_of_roundTrip {clock : ReplayClock} {e : TradeEngine} (hidle : Idle e)
    (strategy : IStrategy) (last : ℚ) (events : List MarketEvent)
    (h : e.roundTrip clock strategy events = true) :
    ∃ xs : List (MarketEvent × TimePoint), xs.map Prod.fst = events ∧
      0 < (replay clock (waiting e strategy last) xs).completed.length := by
  induction events generalizing clock strategy last with
  | nil => cases h
  | cons event rest ih =>
    simp only [roundTrip] at h
    cases hclock : clock.advanceTo event.timestamp with
    | error what =>
      rw [hclock] at h
      cases h
    | ok clock' =>
      rw [hclock] at h
      simp only at h
      cases ht : e.takes clock'.now event with
      | false =>
        have ht' : (waiting e strategy last).takes clock'.now event = false := ht
        simp only [ht, Bool.false_eq_true, if_false] at h
        obtain ⟨xs, hxs, hlen⟩ := ih strategy last h
        refine ⟨e.late event :: xs, by rw [List.map_cons, hxs, late], ?_⟩
        rw [late, replay_goes_on hclock (processEvent_not_taken ht')]
        exact hlen
      | true =>
        simp only [ht, if_true, Bool.or_eq_true, Bool.and_eq_true, decide_eq_true_eq] at h
        rcases h with ⟨⟨hbuy, hsize⟩, hleaves⟩ | h
        · refine ⟨prompt event :: rest.map prompt, by rw [List.map_cons, map_fst_prompt, prompt], ?_⟩
          have hfresh : event.timestamp - event.timestamp ≤ milliseconds e.risk.maxDataAgeMs := by
            have hage := hidle.valid.times.2.2
            rw [sub_self]
            exact Int.mul_nonneg hage.le (by decide)
          have happ : (RiskManager.approveEntry e.risk (strategy.onEvent event).2 event.price event.timestamp
              e.lastExit event.timestamp).approved = true := by
            rw [hidle.noExit, RiskManager.approveEntry_fresh hbuy (takes_price ht) hfresh]
            exact hsize
          rw [prompt, replay_goes_on hclock (processEvent_enters hidle ht happ)]
          have hholding := Holding.entering hidle (strategy.onEvent event).1 (strategy.onEvent event).2 event hsize
          have hleaves' := (entering_leaves e (strategy.onEvent event).1 (strategy.onEvent event).2 event clock'
            (e.entryAt (strategy.onEvent event).2 event) rest).trans hleaves
          rw [← map_fst_prompt rest] at hleaves'
          exact Nat.lt_of_le_of_lt (Nat.zero_le _) (replay_of_leaves hholding (rest.map prompt) hleaves')
        · obtain ⟨xs, hxs, hlen⟩ := ih _ _ h
          refine ⟨e.late event :: xs, by rw [List.map_cons, hxs, late], ?_⟩
          rw [late, replay_goes_on hclock (processEvent_waits hidle ht (staleAt_refused e _ event))]
          exact hlen

end TradeEngine

open TradeEngine

/-- **When a replay is repeatable.**  The completed trades are the same under
every schedule of the system clock exactly when the data hold no round trip. -/
theorem scheduleFree_iff {document : Json} {config : RiskConfig} (hc : loadRiskConfig document = .ok config)
    (symbol : String) (strategy : IStrategy) (clock : ReplayClock) (events : List MarketEvent) :
    ScheduleFree clock (init symbol false config strategy) events ↔
      (init symbol false config strategy).roundTrip clock strategy events = false := by
  have hidle := idle_init hc symbol false strategy
  constructor
  · intro hfree
    by_contra htrip
    obtain ⟨xs, hxs, hlen⟩ :=
      exists_replay_of_roundTrip hidle strategy 0 events (Bool.eq_true_of_not_eq_false htrip)
    have hsame := hfree xs (events.map (init symbol false config strategy).late) hxs (map_fst_late _ _)
    have hnone : (replay clock (init symbol false config strategy)
        (events.map (init symbol false config strategy).late)).completed = [] :=
      replay_late hidle strategy 0 events
    have hsome : 0 < (replay clock (init symbol false config strategy) xs).completed.length := hlen
    rw [hsame, hnone] at hsome
    exact Nat.lt_irrefl 0 hsome
  · intro hno xs ys hxs hys
    have hx := replay_of_no_roundTrip hidle strategy 0 xs (hxs ▸ hno)
    have hy := replay_of_no_roundTrip hidle strategy 0 ys (hys ▸ hno)
    exact hx.trans hy.symm

/-- A falling market is not bought. -/
theorem scheduleFree_iff_falling :
    ScheduleFree {} (init "BTCUSDT" false shippedRisk quickMomentum) [btcEvent 1 101, btcEvent 2 100] :=
  (scheduleFree_iff shippedRisk_loaded "BTCUSDT" quickMomentum {} [btcEvent 1 101, btcEvent 2 100]).mpr
    (by decide +kernel)

/-- The round trip is completed by a run along with the market, and not by a
replay of its records. -/
theorem recordedRoundTrip_not_scheduleFree :
    loadRiskConfig shippedDocument = .ok shippedRisk ∧
      StrategyFactory.create quickMomentumDocument = .ok quickMomentum ∧
      roundTripEvents.Pairwise (·.timestamp ≤ ·.timestamp) ∧
      ¬ ScheduleFree {} (init "BTCUSDT" false shippedRisk quickMomentum) roundTripEvents := by
  refine ⟨shippedRisk_loaded, quickMomentum_created, by decide, fun hfree => ?_⟩
  have hsame := hfree (roundTripEvents.map prompt)
    (roundTripEvents.map (init "BTCUSDT" false shippedRisk quickMomentum).late) rfl rfl
  have hne : (replay {} (init "BTCUSDT" false shippedRisk quickMomentum) (roundTripEvents.map prompt)).completed ≠
      (replay {} (init "BTCUSDT" false shippedRisk quickMomentum)
        (roundTripEvents.map (init "BTCUSDT" false shippedRisk quickMomentum).late)).completed := by
    decide +kernel
  exact hne hsame

end Sentum.Trader
