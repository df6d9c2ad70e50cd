import Sentum.Trader.EngineBooks
import Sentum.Trader.Transitions

/-!
# The sequence of completed trades

Fed events in the order of their timestamps, and with a database that takes
every trade, an engine completes trades that follow one another: each is
entered no earlier than the one before it was left, and is sound by itself.

`Move` is what the transitions of one call leave of the position; the
invariant `Chronological` is derived from it.
-/

namespace Sentum.Trader

open Sentum.Market Sentum.Strategy Sentum.Risk Sentum.Execution Run

/-! ## Sound trades -/

/-- What the entry fixes and marking keeps. -/
structure TradePosition.Entered (p : TradePosition) : Prop where
  quantity : 0 < p.quantity
  entryPrice : 0 < p.entryPrice
  lowest : p.lowestPrice ≤ p.entryPrice
  highest : p.entryPrice ≤ p.highestPrice

namespace TradePosition

theorem mark_entryTime (p : TradePosition) (price : ℚ) : (p.mark price).entryTime = p.entryTime := by
  unfold mark lowered raised
  repeat' split
  all_goals rfl

theorem mark_entryPrice (p : TradePosition) (price : ℚ) : (p.mark price).entryPrice = p.entryPrice := by
  unfold mark lowered raised
  repeat' split
  all_goals rfl

theorem highestPrice_le_mark (p : TradePosition) (price : ℚ) : p.highestPrice ≤ (p.mark price).highestPrice := by
  have hlowered : ∀ q : TradePosition, (q.lowered price).highestPrice = q.highestPrice := by
    intro q
    unfold lowered
    split <;> rfl
  unfold mark
  rw [hlowered]
  unfold raised
  split
  · next hlt => exact le_of_lt hlt
  · exact le_rfl

theorem mark_lowestPrice_le (p : TradePosition) (price : ℚ) : (p.mark price).lowestPrice ≤ p.lowestPrice := by
  have hraised : (p.raised price).lowestPrice = p.lowestPrice := by
    unfold raised
    split <;> rfl
  unfold mark lowered
  split
  · next hlt => exact le_of_lt (hraised ▸ hlt)
  · exact le_of_eq hraised

/-- New extremes are beyond the old ones. -/
theorem Entered.mark {p : TradePosition} (h : p.Entered) (price : ℚ) : (p.mark price).Entered where
  quantity := by rw [mark_quantity]; exact h.quantity
  entryPrice := by rw [mark_entryPrice]; exact h.entryPrice
  lowest := by
    rw [mark_entryPrice]
    exact (p.mark_lowestPrice_le price).trans h.lowest
  highest := by
    rw [mark_entryPrice]
    exact h.highest.trans (p.highestPrice_le_mark price)

end TradePosition

/-! ## What a call can do to the position -/

namespace TradeEngine

/-- The fill model moves a price to the buyer's disadvantage. -/
structure FillsUp (v : SimulatedExecutionVenue) : Prop where
  spread : 0 ≤ v.spreadPercent
  slippage : 0 ≤ v.slippagePercent

theorem fillsUp_init (symbol : String) (api : Bool) (risk : RiskConfig) (strategy : IStrategy) :
    FillsUp (init symbol api risk strategy).venue :=
  ⟨le_max_left _ _, le_max_left _ _⟩

theorem fillPrice_buy_pos {v : SimulatedExecutionVenue} (h : FillsUp v) {price : ℚ} (hp : 0 < price)
    (now : TimePoint) : 0 < (v.setMarket price now).fillPrice .buy := by
  have hspread := h.spread
  have hslippage := h.slippage
  show 0 < price * (1 + v.spreadPercent * (1 / 2)) * (1 + v.slippagePercent)
  positivity

/-- What `process_event` does to position and completed trades, and whether a
BUY is its result. -/
inductive Move (e : TradeEngine) (saves : Bool) (event : MarketEvent) :
    TradeEngine → Except String TradeAction → Prop
  /-- the position is left alone, or marked if it is open -/
  | held {e' : TradeEngine} {result : Except String TradeAction} (hvenue : FillsUp e'.venue)
      (hposition : e'.position = e.position ∨ e'.position = e.position.mark event.price)
      (hcompleted : e'.completed = e.completed) (hresult : result ≠ .ok .buy) : Move e saves event e' result
  | entered {e' : TradeEngine} (hvenue : FillsUp e'.venue) (hflat : e.position.isOpen = false)
      (hentered : e'.position.Entered) (htime : e'.position.entryTime = event.timestamp)
      (hcompleted : e'.completed = e.completed) : Move e saves event e' (.ok .buy)
  /-- the trade that is completed is the position, marked or not, with the exit's data -/
  | closed {e' : TradeEngine} (p trade : TradePosition) (hvenue : FillsUp e'.venue)
      (hopen : e.position.isOpen = true) (hp : p = e.position ∨ p = e.position.mark event.price)
      (hentered : p.Entered → trade.Entered) (hentry : trade.entryTime = p.entryTime)
      (hexit : trade.exitTime = event.timestamp) (hcompleted : e'.completed = e.completed ++ [trade])
      (hflat : e'.position.isOpen = false) : Move e saves event e' (.ok .sell)
  /-- the database does not take the trade, which stays open with the exit's data -/
  | unsaved {e' : TradeEngine} (p : TradePosition) (what : String) (hvenue : FillsUp e'.venue)
      (hsaves : saves = false) (hopen : e.position.isOpen = true)
      (hp : p = e.position ∨ p = e.position.mark event.price)
      (hentered : p.Entered → e'.position.Entered) (hcompleted : e'.completed = e.completed) :
      Move e saves event e' (.error what)

theorem FillsUp.sameTerms {e e' : TradeEngine} (h : FillsUp e.venue) (hterms : SameTerms e e') : FillsUp e'.venue where
  spread := by rw [hterms.spread]; exact h.spread
  slippage := by rw [hterms.slippage]; exact h.slippage

section
variable {e : TradeEngine} {s : Surroundings} {event : MarketEvent}

theorem Due.position {p : TradePosition} {reason : String} (h : Due e s event p reason) :
    p = e.position ∨ p = e.position.mark event.price := by
  cases h with
  | manual hmanual => exact .inl rfl
  | rule hmanual hrule => exact .inr rfl

theorem Due.entryTime {p : TradePosition} {reason : String} (h : Due e s event p reason) :
    p.entryTime = e.position.entryTime := by
  rcases h.position with rfl | rfl
  · rfl
  · exact e.position.mark_entryTime event.price

/-- An entry is made with a size the venue takes, at a price above zero. -/
theorem Enters.entered (h : Enters e s event) (hvenue : FillsUp e.venue) (signal : StrategySignal) :
    (e.entryAt signal event).Entered where
  quantity := h.sized.2
  entryPrice := by
    have htakes := h.takes
    simp only [TradeEngine.takes, Bool.and_eq_true, decide_eq_true_eq] at htakes
    exact fillPrice_buy_pos hvenue htakes.1.2 event.timestamp
  lowest := le_rfl
  highest := le_rfl

/-- **One call of `process_event`.** -/
theorem processEvent_move (hvenue : FillsUp e.venue) (s : Surroundings) (event : MarketEvent) :
    Move e s.saves event (e.processEvent s event).engine (e.processEvent s event).result := by
  have htransition := e.processEvent_transition s event
  generalize (e.processEvent s event).engine = e' at htransition ⊢
  generalize (e.processEvent s event).result = result at htransition ⊢
  cases htransition with
  | held hterms hno hposition hcompleted hexit hresult =>
    exact .held (hvenue.sameTerms hterms) (hposition.imp id fun h => h.2.2) hcompleted hresult
  | entered hterms henters hposition hcompleted hexit =>
    have hentered := henters.entered hvenue (e.strategy.onEvent event).2
    rw [← hposition] at hentered
    refine .entered (hvenue.sameTerms hterms) henters.flat hentered ?_ hcompleted
    rw [hposition]
    rfl
  | closed p reason hterms htakes hopen hdue hsaves hposition hcompleted hexit =>
    refine .closed p (p.settled e.risk (e.exitFill p.quantity event) reason) (hvenue.sameTerms hterms) hopen
      hdue.position (fun h => ?_) rfl rfl hcompleted ?_
    · exact ⟨h.quantity, h.entryPrice, h.lowest, h.highest⟩
    · rw [hposition]
  | unsaved p reason what hterms htakes hopen hdue hsaves hposition hcompleted hexit =>
    refine .unsaved p what (hvenue.sameTerms hterms) hsaves hopen hdue.position (fun h => ?_) hcompleted
    rw [hposition]
    exact ⟨h.quantity, h.entryPrice, h.lowest, h.highest⟩

end

end TradeEngine

/-! ## Runs -/

/-- When an event is fed. -/
def EngineAction.timestamp : EngineAction → Option TimePoint
  | .event _ _ _ e => some e.timestamp
  | _ => none

/-- The database takes the trade if the event completes one. -/
def EngineAction.saved : EngineAction → Prop
  | .event _ _ saves _ => saves = true
  | _ => True

namespace EngineRun

/-- **Invariant.**  `last` is the timestamp of the last event. -/
structure Chronological (last : TimePoint) (s : EngineRun) : Prop where
  fills : TradeEngine.FillsUp s.engine.venue
  sound : ∀ trade ∈ s.engine.completed, trade.Entered ∧ trade.entryTime ≤ trade.exitTime
  apart : s.engine.completed.Pairwise fun earlier later => earlier.exitTime ≤ later.entryTime
  past : ∀ trade ∈ s.engine.completed, trade.exitTime ≤ last
  position : s.engine.position.isOpen = true → s.engine.position.Entered ∧
    s.engine.position.entryTime ≤ last ∧
    ∀ trade ∈ s.engine.completed, trade.exitTime ≤ s.engine.position.entryTime

theorem chronological_start (last : TimePoint) (symbol : String) (api : Bool) (risk : RiskConfig)
    (strategy : IStrategy) : Chronological last (start symbol api risk strategy) where
  fills := TradeEngine.fillsUp_init symbol api risk strategy
  sound := fun _ ht => absurd ht List.not_mem_nil
  apart := List.Pairwise.nil
  past := fun _ ht => absurd ht List.not_mem_nil
  position := fun hopen => absurd hopen Bool.false_ne_true

/-- **Step lemma**, for an event. -/
theorem Chronological.event {last : TimePoint} {s : EngineRun} (h : Chronological last s)
    {clockNow systemNow : TimePoint} {event : MarketEvent} (hlast : last ≤ event.timestamp) :
    Chronological event.timestamp (step s (.event clockNow systemNow true event)) := by
  have hmove := TradeEngine.processEvent_move h.fills (s.surroundings clockNow systemNow true) event
  have hpast : ∀ trade ∈ s.engine.completed, trade.exitTime ≤ event.timestamp :=
    fun trade ht => le_trans (h.past trade ht) hlast
  unfold step
  dsimp only
  generalize (s.engine.processEvent (s.surroundings clockNow systemNow true) event).result = result at hmove
  generalize (s.engine.processEvent (s.surroundings clockNow systemNow true) event).engine = e' at hmove ⊢
  cases hmove with
  | held hvenue hposition hcompleted hresult =>
    refine ⟨hvenue, ?_, ?_, ?_, fun hopen => ?_⟩
    · rw [hcompleted]
      exact h.sound
    · rw [hcompleted]
      exact h.apart
    · rw [hcompleted]
      exact hpast
    · rw [hcompleted]
      rcases hposition with hposition | hposition
      · rw [hposition] at hopen ⊢
        obtain ⟨hentered, htime, hafter⟩ := h.position hopen
        exact ⟨hentered, le_trans htime hlast, hafter⟩
      · rw [hposition, TradePosition.mark_isOpen] at hopen
        obtain ⟨hentered, htime, hafter⟩ := h.position hopen
        rw [hposition, TradePosition.mark_entryTime]
        exact ⟨hentered.mark event.price, le_trans htime hlast, hafter⟩
  | entered hvenue hflat hentered htime hcompleted =>
    refine ⟨hvenue, ?_, ?_, ?_, fun _ => ⟨hentered, le_of_eq htime, ?_⟩⟩
    · rw [hcompleted]
      exact h.sound
    · rw [hcompleted]
      exact h.apart
    · rw [hcompleted]
      exact hpast
    · rw [hcompleted, htime]
      exact hpast
  | closed p trade hvenue hopen hp hentered hentry hexit hcompleted hflat =>
    obtain ⟨hposition, htime, hafter⟩ := h.position hopen
    have hp' : p.Entered ∧ p.entryTime = s.engine.position.entryTime := by
      rcases hp with rfl | rfl
      · exact ⟨hposition, rfl⟩
      · exact ⟨hposition.mark event.price, TradePosition.mark_entryTime _ _⟩
    have hentry' : trade.entryTime = s.engine.position.entryTime := hentry.trans hp'.2
    refine ⟨hvenue, ?_, ?_, ?_, fun hopen' => ?_⟩
    · rw [hcompleted]
      intro t ht
      rcases List.mem_append.mp ht with ht | ht
      · exact h.sound t ht
      · rw [List.mem_singleton.mp ht]
        refine ⟨hentered hp'.1, ?_⟩
        rw [hexit, hentry']
        exact le_trans htime hlast
    · rw [hcompleted, List.pairwise_append]
      refine ⟨h.apart, List.pairwise_singleton _ _, fun t ht t' ht' => ?_⟩
      rw [List.mem_singleton.mp ht', hentry']
      exact hafter t ht
    · rw [hcompleted]
      intro t ht
      rcases List.mem_append.mp ht with ht | ht
      · exact hpast t ht
      · rw [List.mem_singleton.mp ht, hexit]
    · rw [hflat] at hopen'
      cases hopen'
  | unsaved p what hvenue hsaves => cases hsaves

/-- **Run lemma.** -/
theorem Chronological.exec {last : TimePoint} {s : EngineRun} (h : Chronological last s)
    {as : List EngineAction} (hafter : ∀ t ∈ as.filterMap EngineAction.timestamp, last ≤ t)
    (hordered : (as.filterMap EngineAction.timestamp).Pairwise (· ≤ ·)) (hsaved : ∀ a ∈ as, a.saved) :
    ∃ last', Chronological last' (exec step s as) := by
  induction as generalizing last s with
  | nil => exact ⟨last, h⟩
  | cons a as ih =>
    have hrest : ∀ b ∈ as, b.saved := fun b hb => hsaved b (List.mem_cons_of_mem a hb)
    cases a with
    | event clockNow systemNow saves event =>
      have hsaves : saves = true := hsaved _ List.mem_cons_self
      subst hsaves
      have htimes : (event.timestamp :: as.filterMap EngineAction.timestamp).Pairwise (· ≤ ·) := hordered
      obtain ⟨hfirst, hlater⟩ := List.pairwise_cons.mp htimes
      exact ih (h.event (hafter event.timestamp List.mem_cons_self)) hfirst hlater hrest
    | pauseEntries value => exact ih ⟨h.fills, h.sound, h.apart, h.past, h.position⟩ hafter hordered hrest
    | requestManualClose => exact ih ⟨h.fills, h.sound, h.apart, h.past, h.position⟩ hafter hordered hrest
    | stop =>
      exact ih ⟨⟨h.fills.spread, h.fills.slippage⟩, h.sound, h.apart, h.past, h.position⟩ hafter hordered hrest

theorem chronological_exec (symbol : String) (api : Bool) (risk : RiskConfig) (strategy : IStrategy)
    {as : List EngineAction} (hordered : (as.filterMap EngineAction.timestamp).Pairwise (· ≤ ·))
    (hsaved : ∀ a ∈ as, a.saved) :
    ∃ last, Chronological last (exec step (start symbol api risk strategy) as) := by
  cases htimes : as.filterMap EngineAction.timestamp with
  | nil =>
    refine (chronological_start 0 symbol api risk strategy).exec ?_ hordered hsaved
    rw [htimes]
    nofun
  | cons first rest =>
    refine (chronological_start first symbol api risk strategy).exec ?_ hordered hsaved
    rw [htimes] at hordered ⊢
    intro t ht
    rcases List.mem_cons.mp ht with rfl | ht
    · exact le_rfl
    · exact (List.pairwise_cons.mp hordered).1 t ht

/-- **Main result: completed trades are chronological and disjoint.** -/
theorem completed_chronological (symbol : String) (api : Bool) (risk : RiskConfig) (strategy : IStrategy)
    {as : List EngineAction} (hordered : (as.filterMap EngineAction.timestamp).Pairwise (· ≤ ·))
    (hsaved : ∀ a ∈ as, a.saved) :
    let e := (exec step (start symbol api risk strategy) as).engine
    (∀ trade ∈ e.completed, 0 < trade.quantity ∧ trade.entryTime ≤ trade.exitTime ∧
      trade.lowestPrice ≤ trade.entryPrice ∧ trade.entryPrice ≤ trade.highestPrice) ∧
    e.completed.Pairwise (fun earlier later => earlier.exitTime ≤ later.entryTime) ∧
    ∀ s event, (e.processEvent s event).result = .ok .buy → e.position.isOpen = false := by
  intro e
  obtain ⟨last, h⟩ := chronological_exec symbol api risk strategy hordered hsaved
  refine ⟨fun trade ht => ?_, h.apart, fun s event hbuy => ?_⟩
  · obtain ⟨hentered, htime⟩ := h.sound trade ht
    exact ⟨hentered.quantity, htime, hentered.lowest, hentered.highest⟩
  · have hmove := TradeEngine.processEvent_move h.fills s event
    rw [hbuy] at hmove
    cases hmove with
    | held hvenue hposition hcompleted hresult => exact absurd rfl hresult
    | entered hvenue hflat => exact hflat

/-- Two round trips, the second one entered when the first one is left. -/
theorem completed_chronological_roundTrips :
    let fed := (roundTripEvents ++ [btcEvent 400 100, btcEvent 401 101, btcEvent 402 110]).map fun event =>
      EngineAction.event event.timestamp event.timestamp true event
    let e := (exec step (start "BTCUSDT" false shippedRisk quickMomentum) fed).engine
    e.completed.length = 2 ∧
      e.completed.Pairwise (fun earlier later => earlier.exitTime ≤ later.entryTime) := by
  intro fed e
  have h := completed_chronological "BTCUSDT" false shippedRisk quickMomentum 
    (show (fed.filterMap EngineAction.timestamp).Pairwise (· ≤ ·) by
      simp [fed, roundTripEvents, btcEvent, EngineAction.timestamp, seconds]) ?_
  · exact ⟨by decide +kernel, h.2.1⟩
  · intro a ha
    obtain ⟨event, -, rfl⟩ := List.mem_map.mp ha
    rfl

/-! ## Every run -/

/-- **Invariant**, whether or not trades are saved and events are in order. -/
structure Sound (s : EngineRun) : Prop where
  fills : TradeEngine.FillsUp s.engine.venue
  completed : ∀ trade ∈ s.engine.completed, trade.Entered
  position : s.engine.position.isOpen = true → s.engine.position.Entered

theorem Sound.step {s : EngineRun} (h : Sound s) (a : EngineAction) : Sound (step s a) := by
  cases a with
  | pauseEntries value => exact ⟨h.fills, h.completed, h.position⟩
  | requestManualClose => exact ⟨h.fills, h.completed, h.position⟩
  | stop => exact ⟨⟨h.fills.spread, h.fills.slippage⟩, h.completed, h.position⟩
  | event clockNow systemNow saves event =>
    have hmove := TradeEngine.processEvent_move h.fills (s.surroundings clockNow systemNow saves) event
    have hmarked : ∀ p : TradePosition, s.engine.position.isOpen = true →
        p = s.engine.position ∨ p = s.engine.position.mark event.price → p.Entered := by
      rintro p hopen (rfl | rfl)
      · exact h.position hopen
      · exact (h.position hopen).mark event.price
    unfold EngineRun.step
    dsimp only
    generalize (s.engine.processEvent (s.surroundings clockNow systemNow saves) event).result = result at hmove
    generalize (s.engine.processEvent (s.surroundings clockNow systemNow saves) event).engine = e' at hmove ⊢
    cases hmove with
    | held hvenue hposition hcompleted hresult =>
      refine ⟨hvenue, fun trade ht => h.completed trade (hcompleted ▸ ht), fun hopen => hmarked _ ?_ hposition⟩
      dsimp only at hopen
      rcases hposition with hposition | hposition
      · exact hposition ▸ hopen
      · rw [hposition, TradePosition.mark_isOpen] at hopen
        exact hopen
    | entered hvenue hflat hentered htime hcompleted =>
      exact ⟨hvenue, fun trade ht => h.completed trade (hcompleted ▸ ht), fun _ => hentered⟩
    | closed p trade hvenue hopen hp hentered hentry hexit hcompleted hflat =>
      refine ⟨hvenue, fun t ht => ?_, fun hopen' => ?_⟩
      · dsimp only at ht
        rw [hcompleted] at ht
        rcases List.mem_append.mp ht with ht | ht
        · exact h.completed t ht
        · rw [List.mem_singleton.mp ht]
          exact hentered (hmarked p hopen hp)
      · dsimp only at hopen'
        rw [hflat] at hopen'
        cases hopen'
    | unsaved p what hvenue hsaves hopen hp hentered hcompleted =>
      exact ⟨hvenue, fun trade ht => h.completed trade (hcompleted ▸ ht), fun _ => hentered (hmarked p hopen hp)⟩

theorem sound_start (symbol : String) (api : Bool) (risk : RiskConfig) (strategy : IStrategy) :
    Sound (start symbol api risk strategy) :=
  ⟨TradeEngine.fillsUp_init symbol api risk strategy, fun _ ht => absurd ht List.not_mem_nil,
    fun hopen => absurd hopen Bool.false_ne_true⟩

/-- **Every completed trade is a sound one.** -/
theorem completed_entered (symbol : String) (api : Bool) (risk : RiskConfig) (strategy : IStrategy)
    (as : List EngineAction) :
    ∀ trade ∈ (exec step (start symbol api risk strategy) as).engine.completed, trade.Entered := by
  exact (exec_inv (fun _ a h => h.step a) (sound_start symbol api risk strategy) as).completed

end EngineRun

end Sentum.Trader
