import Mathlib.Data.Nat.Cast.Order.Basic
import Sentum.Market.IncrementalIndicators
import Sentum.Market.MarketEvent
import Sentum.Nlohmann.Json

/-!
# Strategies

The five strategies and the ensemble of them, and `StrategyFactory::create`,
which builds one from its configuration.  A strategy answers a price or an
event with a signal and its next state.
-/

namespace Sentum.Strategy

open Sentum Market

inductive TradeAction where
  | none | buy | sell | hold
deriving DecidableEq

structure StrategySignal where
  action : TradeAction := .none
  strategy : String := ""
  reason : String := ""
  referencePrice : ℚ := 0
  createdAt : TimePoint := 0
  confidence : ℚ := 0
deriving DecidableEq

/-- `std::clamp` -/
def clamp (value low high : ℚ) : ℚ := if value < low then low else if high < value then high else value

/-! ## The strategies -/

structure MomentumStrategy where
  entryThreshold : ℚ
  rollingReturn : RollingReturn

namespace MomentumStrategy

def init (lookback : Nat) (entryThreshold : ℚ) : MomentumStrategy :=
  { entryThreshold, rollingReturn := .init lookback }

/-- `std::vector<double>::max_size()`: the distance of two iterators, in bytes,
is a `ptrdiff_t`. -/
def vectorMaxSize : Nat := (2 ^ 63 - 1) / 8

/-- The constructor, which throws where the buffer cannot be created. -/
def construct (lookback : Nat) (entryThreshold : ℚ) : Except String MomentumStrategy :=
  if vectorMaxSize < max 2 lookback then .error "cannot create std::vector larger than max_size()"
  else .ok (init lookback entryThreshold)

theorem construct_eq_ok {lookback : Nat} {entryThreshold : ℚ} {s : MomentumStrategy} :
    construct lookback entryThreshold = .ok s ↔
      max 2 lookback ≤ vectorMaxSize ∧ s = init lookback entryThreshold := by
  unfold construct
  split
  · next h => exact iff_of_false nofun fun hle => absurd hle.1 (not_le.mpr h)
  · next h => exact ⟨fun hok => ⟨not_lt.mp h, (Except.ok.inj hok).symm⟩, fun hle => congrArg Except.ok hle.2.symm⟩

def onPrice (s : MomentumStrategy) (price : ℚ) (observedAt : TimePoint) : MomentumStrategy × StrategySignal :=
  let s := { s with rollingReturn := s.rollingReturn.push price }
  if !s.rollingReturn.ready then (s, {})
  else
    let value := s.rollingReturn.value
    if value < s.entryThreshold then (s, {})
    else
      let denominator := max |s.entryThreshold| (1 / 10 ^ 9)
      (s, { action := .buy, strategy := "momentum", reason := "lookback return crossed entry threshold"
            referencePrice := price, createdAt := observedAt
            confidence := clamp (value / denominator) 0 2 / 2 })

def reset (s : MomentumStrategy) : MomentumStrategy := { s with rollingReturn := s.rollingReturn.reset }

end MomentumStrategy

structure TrendStrategy where
  fastPeriod : Nat
  slowPeriod : Nat
  threshold : ℚ
  samples : Nat := 0
  fast : Ema
  slow : Ema

namespace TrendStrategy

def init (fast slow : Nat) (threshold : ℚ) : Except String TrendStrategy :=
  if fast = 0 ∨ slow ≤ fast then .error "trend strategy requires 0 < fast < slow"
  else .ok { fastPeriod := fast, slowPeriod := slow, threshold, fast := .init fast, slow := .init slow }

def onPrice (s : TrendStrategy) (price : ℚ) (observedAt : TimePoint) : TrendStrategy × StrategySignal :=
  let s := { s with fast := s.fast.push price, slow := s.slow.push price, samples := s.samples + 1 }
  if s.samples < s.slowPeriod ∨ ¬ 0 < s.slow.value then (s, {})
  else
    let spread := (s.fast.value - s.slow.value) / s.slow.value
    if spread < s.threshold then (s, {})
    else
      (s, { action := .buy, strategy := "trend", reason := "fast EMA above slow EMA"
            referencePrice := price, createdAt := observedAt
            confidence := clamp (spread / max s.threshold (1 / 10 ^ 9)) 0 2 / 2 })

def reset (s : TrendStrategy) : TrendStrategy :=
  { s with fast := .init s.fastPeriod, slow := .init s.slowPeriod, samples := 0 }

end TrendStrategy

structure MeanReversionStrategy where
  period : Nat
  oversold : ℚ
  rsi : Rsi

namespace MeanReversionStrategy

def init (period : Nat) (oversold : ℚ) : Except String MeanReversionStrategy :=
  if ¬ (0 < oversold ∧ oversold < 50) then .error "oversold must be between 0 and 50"
  else .ok { period, oversold, rsi := .init period }

def onPrice (s : MeanReversionStrategy) (price : ℚ) (observedAt : TimePoint) :
    MeanReversionStrategy × StrategySignal :=
  let (rsi, index) := s.rsi.push price
  let s := { s with rsi }
  if !rsi.ready || decide (s.oversold < index) then (s, {})
  else
    (s, { action := .buy, strategy := "mean_reversion", reason := "RSI entered oversold region"
          referencePrice := price, createdAt := observedAt
          confidence := clamp ((s.oversold - index) / max s.oversold 1) 0 1 })

def reset (s : MeanReversionStrategy) : MeanReversionStrategy := { s with rsi := .init s.period }

end MeanReversionStrategy

structure BreakoutStrategy where
  lookback : Nat
  buffer : ℚ
  window : List ℚ := []

namespace BreakoutStrategy

def init (lookback : Nat) (buffer : ℚ) : BreakoutStrategy :=
  { lookback := max 2 lookback, buffer := max 0 buffer }

/-- `*std::max_element` -/
def priorHigh : List ℚ → ℚ
  | [] => 0
  | x :: xs => xs.foldl max x

def onPrice (s : BreakoutStrategy) (price : ℚ) (observedAt : TimePoint) : BreakoutStrategy × StrategySignal :=
  if s.window.length < s.lookback then ({ s with window := s.window ++ [price] }, {})
  else
    let high := priorHigh s.window
    let s := { s with window := s.window.tail ++ [price] }
    if price ≤ high * (1 + s.buffer) then (s, {})
    else
      let breakout := if 0 < high then (price - high) / high else 0
      (s, { action := .buy, strategy := "breakout", reason := "price broke rolling high"
            referencePrice := price, createdAt := observedAt
            confidence := clamp (breakout / max s.buffer (1 / 10 ^ 6)) 0 2 / 2 })

def reset (s : BreakoutStrategy) : BreakoutStrategy := { s with window := [] }

end BreakoutStrategy

structure AggregatedFrame where
  bucket : Int := -1
  openPrice : ℚ := 0
  high : ℚ := 0
  low : ℚ := 0
  close : ℚ := 0
  volume : ℚ := 0
  ready : Bool := false

structure TimeframeAggregator where
  seconds : Int
  current : AggregatedFrame := {}
  latestClosed : AggregatedFrame := {}

namespace TimeframeAggregator

def init (seconds : Int) : TimeframeAggregator := { seconds := max 1 seconds }

/-- The flag says that a frame has closed. -/
def push (a : TimeframeAggregator) (e : MarketEvent) : TimeframeAggregator × Bool :=
  let price := e.tradedAt
  if ¬ 0 < price then (a, false)
  else
    let bucket := (toSeconds e.timestamp).tdiv a.seconds
    let closed := decide (0 ≤ a.current.bucket ∧ bucket ≠ a.current.bucket)
    let a := if closed then { a with latestClosed := { a.current with ready := true }, current := {} } else a
    let frame : AggregatedFrame :=
      if a.current.bucket < 0 then
        { a.current with bucket, openPrice := price, high := price, low := price, close := price }
      else
        { a.current with high := max a.current.high price, low := min a.current.low price, close := price }
    ({ a with current := { frame with volume := frame.volume + e.volume } }, closed)

def reset (a : TimeframeAggregator) : TimeframeAggregator := { a with current := {}, latestClosed := {} }

end TimeframeAggregator

structure MultiTimeframeTrendStrategy where
  emaPeriod : Nat
  threshold : ℚ
  fastFrame : TimeframeAggregator
  slowFrame : TimeframeAggregator
  fastEma : Ema
  slowEma : Ema
  fastSamples : Nat := 0
  slowSamples : Nat := 0
  fastValue : ℚ := 0
  slowValue : ℚ := 0

namespace MultiTimeframeTrendStrategy

def init (fastSeconds slowSeconds : Int) (emaPeriod : Nat) (threshold : ℚ) :
    Except String MultiTimeframeTrendStrategy :=
  if slowSeconds ≤ fastSeconds then .error "slow timeframe must exceed fast timeframe"
  else
    .ok { emaPeriod, threshold, fastFrame := .init fastSeconds, slowFrame := .init slowSeconds
          fastEma := .init emaPeriod, slowEma := .init emaPeriod }

/-- The event in the fast frame. -/
def pushFast (s : MultiTimeframeTrendStrategy) (e : MarketEvent) : MultiTimeframeTrendStrategy :=
  let (fastFrame, closed) := s.fastFrame.push e
  if closed then
    let fastEma := s.fastEma.push fastFrame.latestClosed.close
    { s with fastFrame, fastEma, fastValue := fastEma.value, fastSamples := s.fastSamples + 1 }
  else { s with fastFrame }

/-- The event in the slow frame. -/
def pushSlow (s : MultiTimeframeTrendStrategy) (e : MarketEvent) : MultiTimeframeTrendStrategy :=
  let (slowFrame, closed) := s.slowFrame.push e
  if closed then
    let slowEma := s.slowEma.push slowFrame.latestClosed.close
    { s with slowFrame, slowEma, slowValue := slowEma.value, slowSamples := s.slowSamples + 1 }
  else { s with slowFrame }

def onEvent (s : MultiTimeframeTrendStrategy) (e : MarketEvent) :
    MultiTimeframeTrendStrategy × StrategySignal :=
  let s := (s.pushFast e).pushSlow e
  if s.fastSamples < s.emaPeriod ∨ s.slowSamples < s.emaPeriod ∨ ¬ 0 < s.slowValue then (s, {})
  else
    let spread := (s.fastValue - s.slowValue) / s.slowValue
    if spread < s.threshold then (s, {})
    else
      (s, { action := .buy, strategy := "multi_timeframe_trend"
            reason := "fast timeframe trend confirmed by slow timeframe"
            referencePrice := e.tradedAt, createdAt := e.timestamp
            confidence := clamp (spread / max s.threshold (1 / 10 ^ 9)) 0 2 / 2 })

def reset (s : MultiTimeframeTrendStrategy) : MultiTimeframeTrendStrategy :=
  { s with
    fastFrame := s.fastFrame.reset, slowFrame := s.slowFrame.reset
    fastEma := .init s.emaPeriod, slowEma := .init s.emaPeriod
    fastSamples := 0, slowSamples := 0, fastValue := 0, slowValue := 0 }

end MultiTimeframeTrendStrategy

/-! ## The ensemble -/

inductive IStrategy where
  | momentum (s : MomentumStrategy)
  | trend (s : TrendStrategy)
  | meanReversion (s : MeanReversionStrategy)
  | breakout (s : BreakoutStrategy)
  | multiTimeframeTrend (s : MultiTimeframeTrendStrategy)
  | ensemble (threshold : ℚ) (members : List (IStrategy × ℚ))

/-- What an ensemble has gathered from its members. -/
structure Votes where
  weighted : ℚ := 0
  total : ℚ := 0
  reasons : String := ""

/-- One more member's signal. -/
def Votes.add (v : Votes) (signal : StrategySignal) (weight : ℚ) : Votes :=
  let v := { v with total := v.total + weight }
  if signal.action = .buy then
    let confidence := if 0 < signal.confidence then signal.confidence else 1
    { v with
      weighted := v.weighted + weight * confidence
      reasons := (if v.reasons = "" then "" else v.reasons ++ "; ") ++ signal.strategy }
  else v

/-- The ensemble's own signal. -/
def Votes.signal (v : Votes) (threshold : ℚ) (e : MarketEvent) : StrategySignal :=
  let score := if 0 < v.total then v.weighted / v.total else 0
  if score < threshold then {}
  else
    { action := .buy, strategy := "ensemble", reason := "ensemble confirmation: " ++ v.reasons
      referencePrice := e.tradedAt, createdAt := e.timestamp, confidence := clamp score 0 1 }

namespace IStrategy

mutual

def onEvent : IStrategy → MarketEvent → IStrategy × StrategySignal
  | .momentum s, e => (.momentum (s.onPrice e.tradedAt e.timestamp).1, (s.onPrice e.tradedAt e.timestamp).2)
  | .trend s, e => (.trend (s.onPrice e.tradedAt e.timestamp).1, (s.onPrice e.tradedAt e.timestamp).2)
  | .meanReversion s, e =>
    (.meanReversion (s.onPrice e.tradedAt e.timestamp).1, (s.onPrice e.tradedAt e.timestamp).2)
  | .breakout s, e => (.breakout (s.onPrice e.tradedAt e.timestamp).1, (s.onPrice e.tradedAt e.timestamp).2)
  | .multiTimeframeTrend s, e => (.multiTimeframeTrend (s.onEvent e).1, (s.onEvent e).2)
  | .ensemble threshold members, e =>
    let (members, votes) := vote members e {}
    (.ensemble threshold members, votes.signal threshold e)

/-- The members in turn. -/
def vote : List (IStrategy × ℚ) → MarketEvent → Votes → List (IStrategy × ℚ) × Votes
  | [], _, votes => ([], votes)
  | (s, weight) :: rest, e, votes =>
    let (s, signal) := onEvent s e
    let (rest, votes) := vote rest e (votes.add signal weight)
    ((s, weight) :: rest, votes)

end

mutual

def reset : IStrategy → IStrategy
  | .momentum s => .momentum s.reset
  | .trend s => .trend s.reset
  | .meanReversion s => .meanReversion s.reset
  | .breakout s => .breakout s.reset
  | .multiTimeframeTrend s => .multiTimeframeTrend s.reset
  | .ensemble threshold members => .ensemble threshold (resetMembers members)

def resetMembers : List (IStrategy × ℚ) → List (IStrategy × ℚ)
  | [] => []
  | (s, weight) :: rest => (reset s, weight) :: resetMembers rest

end

def name : IStrategy → String
  | .momentum _ => "momentum"
  | .trend _ => "trend"
  | .meanReversion _ => "mean_reversion"
  | .breakout _ => "breakout"
  | .multiTimeframeTrend _ => "multi_timeframe_trend"
  | .ensemble _ _ => "ensemble"

end IStrategy

/-! ## The factory -/

namespace StrategyFactory

/-- `create(definition)` -/
def createSingle (type : String) (p : Json) : Except String IStrategy :=
  if type = "momentum" then do
    let lookback ← p.value Json.getSize "lookback" 20
    let entryThreshold ← p.value Json.getDouble "entry_threshold" (1 / 1000)
    return .momentum (.init lookback entryThreshold)
  else if type = "trend" then do
    let fast ← p.value Json.getSize "fast_period" 12
    let slow ← p.value Json.getSize "slow_period" 26
    let threshold ← p.value Json.getDouble "threshold" (1 / 1000)
    return .trend (← TrendStrategy.init fast slow threshold)
  else if type = "mean_reversion" then do
    let period ← p.value Json.getSize "period" 14
    let oversold ← p.value Json.getDouble "oversold" 30
    return .meanReversion (← MeanReversionStrategy.init period oversold)
  else if type = "breakout" then do
    let lookback ← p.value Json.getSize "lookback" 20
    let buffer ← p.value Json.getDouble "buffer" (1 / 1000)
    return .breakout (.init lookback buffer)
  else if type = "multi_timeframe_trend" then do
    let fast ← p.value Json.getInt64 "fast_timeframe_seconds" 60
    let slow ← p.value Json.getInt64 "slow_timeframe_seconds" 300
    let emaPeriod ← p.value Json.getSize "ema_period" 8
    let threshold ← p.value Json.getDouble "threshold" (1 / 1000)
    return .multiTimeframeTrend (← MultiTimeframeTrendStrategy.init fast slow emaPeriod threshold)
  else .error ("Unsupported strategy type: " ++ type)

/-- `ensemble->add` -/
def add (members : List (IStrategy × ℚ)) (s : IStrategy) (weight : ℚ) : Except String (List (IStrategy × ℚ)) :=
  if ¬ 0 < weight then .error "ensemble member requires positive weight" else .ok (members ++ [(s, weight)])

mutual

def create : Json → Except String IStrategy
  | .object entries =>
    let json := Json.object entries
    match json.value Json.getString "type" "momentum" with
    | .error what => .error what
    | .ok type =>
      if type ≠ "ensemble" then
        -- the weight is read, and checked, for every member
        match json.value Json.getDouble "weight" 1 with
        | .error what => .error what
        | .ok _ => createSingle type ((json.find? "parameters").getD (.object []))
      else
        match json.value Json.getDouble "threshold" (55 / 100) with
        | .error what => .error what
        | .ok threshold => (createMembers entries).map (.ensemble threshold)
  | _ => .error "strategy configuration must be an object"

/-- The entry `members` of an ensemble. -/
def createMembers : List (String × Json) → Except String (List (IStrategy × ℚ))
  | [] => .error "ensemble strategy requires members"
  | (key, v) :: rest =>
    if key = "members" then
      match v with
      | .array (x :: xs) => createAll (x :: xs) []
      | _ => .error "ensemble strategy requires members"
    else createMembers rest

/-- The members in turn, added to those before them. -/
def createAll : List Json → List (IStrategy × ℚ) → Except String (List (IStrategy × ℚ))
  | [], members => .ok members
  | x :: xs, members =>
    match x.value Json.getDouble "weight" 1 with
    | .error what => .error what
    | .ok weight =>
      match create x with
      | .error what => .error what
      | .ok s =>
        match add members s weight with
        | .error what => .error what
        | .ok members => createAll xs members

end

end StrategyFactory

end Sentum.Strategy
