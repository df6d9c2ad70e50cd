import Sentum.Risk.RiskConfig
import Sentum.Strategy.StrategyFramework
import Mathlib.Algebra.Order.Field.Rat
import Mathlib.Data.List.Induction
import Mathlib.Tactic.Linarith

/-!
# The signals of a strategy

What holds of every strategy, nested ensembles included: a signal is the
default one or a well-formed BUY, and a strategy that is reset answers from
then on like a new one.

A reset leaves the prices in the ring buffer of a rolling return, so a strategy
that was reset is not equal to a new one; `Same` relates them, and every event
keeps it.
-/

namespace Sentum.Strategy

open Sentum Market

/-! ## Signals -/

/-- The default signal, or a BUY at the event's price and time. -/
def StrategySignal.WellFormed (signal : StrategySignal) (e : MarketEvent) : Prop :=
  signal = {} ∨
    signal.action = .buy ∧ 0 ≤ signal.confidence ∧ signal.confidence ≤ 1 ∧
      signal.referencePrice = e.tradedAt ∧ signal.createdAt = e.timestamp

theorem StrategySignal.WellFormed.default (e : MarketEvent) : WellFormed {} e := Or.inl rfl

theorem StrategySignal.WellFormed.buy {strategy reason : String} {confidence : ℚ} {e : MarketEvent}
    (h : 0 ≤ confidence ∧ confidence ≤ 1) :
    WellFormed { action := .buy, strategy, reason, referencePrice := e.tradedAt, createdAt := e.timestamp,
                 confidence } e :=
  Or.inr ⟨rfl, h.1, h.2, rfl, rfl⟩

theorem clamp_mem {low high : ℚ} (h : low ≤ high) (value : ℚ) :
    low ≤ clamp value low high ∧ clamp value low high ≤ high := by
  unfold clamp
  split
  · exact ⟨le_rfl, h⟩
  · next hlow =>
    split
    · exact ⟨h, le_rfl⟩
    · next hhigh => exact ⟨not_lt.mp hlow, not_lt.mp hhigh⟩

theorem clamp_half_mem (value : ℚ) : 0 ≤ clamp value 0 2 / 2 ∧ clamp value 0 2 / 2 ≤ 1 := by
  obtain ⟨hlow, hhigh⟩ := clamp_mem zero_le_two value
  constructor <;> linarith

theorem MomentumStrategy.onPrice_fst (s : MomentumStrategy) (price : ℚ) (observedAt : TimePoint) :
    (s.onPrice price observedAt).1 = { s with rollingReturn := s.rollingReturn.push price } := by
  unfold MomentumStrategy.onPrice
  dsimp only
  split
  · rfl
  · split <;> rfl

/-- The signal depends on the threshold and on what the buffer says. -/
theorem MomentumStrategy.onPrice_snd_congr {s t : MomentumStrategy} {price : ℚ} (observedAt : TimePoint)
    (hthreshold : s.entryThreshold = t.entryThreshold)
    (hready : (s.rollingReturn.push price).ready = (t.rollingReturn.push price).ready)
    (hvalue : (s.rollingReturn.push price).value = (t.rollingReturn.push price).value) :
    (s.onPrice price observedAt).2 = (t.onPrice price observedAt).2 := by
  unfold MomentumStrategy.onPrice
  dsimp only
  rw [hready, hvalue, hthreshold]
  split
  · rfl
  · split <;> rfl

theorem MomentumStrategy.onPrice_wellFormed (s : MomentumStrategy) (e : MarketEvent) :
    (s.onPrice e.tradedAt e.timestamp).2.WellFormed e := by
  unfold onPrice
  dsimp only
  split
  · exact .default e
  · split
    · exact .default e
    · exact .buy (clamp_half_mem _)

theorem TrendStrategy.onPrice_wellFormed (s : TrendStrategy) (e : MarketEvent) :
    (s.onPrice e.tradedAt e.timestamp).2.WellFormed e := by
  unfold onPrice
  dsimp only
  split
  · exact .default e
  · split
    · exact .default e
    · exact .buy (clamp_half_mem _)

theorem MeanReversionStrategy.onPrice_wellFormed (s : MeanReversionStrategy) (e : MarketEvent) :
    (s.onPrice e.tradedAt e.timestamp).2.WellFormed e := by
  unfold onPrice
  dsimp only
  split
  · exact .default e
  · exact .buy (clamp_mem zero_le_one _)

theorem BreakoutStrategy.onPrice_wellFormed (s : BreakoutStrategy) (e : MarketEvent) :
    (s.onPrice e.tradedAt e.timestamp).2.WellFormed e := by
  unfold onPrice
  dsimp only
  split
  · exact .default e
  · split
    · exact .default e
    · exact .buy (clamp_half_mem _)

theorem MultiTimeframeTrendStrategy.onEvent_wellFormed (s : MultiTimeframeTrendStrategy) (e : MarketEvent) :
    (s.onEvent e).2.WellFormed e := by
  unfold onEvent
  dsimp only
  split
  · exact .default e
  · split
    · exact .default e
    · exact .buy (clamp_half_mem _)

theorem Votes.signal_wellFormed (v : Votes) (threshold : ℚ) (e : MarketEvent) :
    (v.signal threshold e).WellFormed e := by
  unfold signal
  generalize (if 0 < v.total then v.weighted / v.total else 0) = score
  dsimp only
  split
  · exact .default e
  · exact .buy (clamp_mem zero_le_one _)

namespace IStrategy

/-- **Step lemma.**  Whatever the state of the strategy. -/
theorem onEvent_wellFormed (s : IStrategy) (e : MarketEvent) : (onEvent s e).2.WellFormed e := by
  cases s with
  | momentum s =>
    rw [onEvent]
    exact s.onPrice_wellFormed e
  | trend s =>
    rw [onEvent]
    exact s.onPrice_wellFormed e
  | meanReversion s =>
    rw [onEvent]
    exact s.onPrice_wellFormed e
  | breakout s =>
    rw [onEvent]
    exact s.onPrice_wellFormed e
  | multiTimeframeTrend s =>
    rw [onEvent]
    exact s.onEvent_wellFormed e
  | ensemble threshold members =>
    rw [onEvent]
    exact (vote members e {}).2.signal_wellFormed threshold e

/-! ## Runs -/

/-- The strategy after a history of events. -/
def feed (s : IStrategy) (history : List MarketEvent) : IStrategy :=
  history.foldl (fun s e => (onEvent s e).1) s

theorem feed_concat (s : IStrategy) (history : List MarketEvent) (e : MarketEvent) :
    feed s (history ++ [e]) = (onEvent (feed s history) e).1 := List.foldl_concat _ _ _ _

/-- The signals on the events, in order. -/
def signals : IStrategy → List MarketEvent → List StrategySignal
  | _, [] => []
  | s, e :: rest => (onEvent s e).2 :: signals (onEvent s e).1 rest

/-- **Main result: well-formed signals.**  Every strategy, and so each one the
factory builds, answers every event with the default signal or a BUY that
carries the event's price and time and a confidence between 0 and 1. -/
theorem signals_wellFormed (s : IStrategy) (events : List MarketEvent) :
    List.Forall₂ StrategySignal.WellFormed (signals s events) events := by
  induction events generalizing s with
  | nil => exact List.Forall₂.nil
  | cons e rest ih => exact List.Forall₂.cons (onEvent_wellFormed s e) (ih _)

end IStrategy

end Sentum.Strategy

/-! ## Rolling returns that agree on what was pushed since the last reset -/

namespace Sentum.Market.RollingReturn

structure Agrees (r r' : RollingReturn) : Prop where
  length : r.values.length = r'.values.length
  head : r.head = r'.head
  size : r.size = r'.size
  size_le : r.size ≤ r.values.length
  filling : r.size < r.values.length → r.head = r.size
  entry : ∀ i, (r.size < r.values.length → i < r.size) → r.values[i]? = r'.values[i]?

namespace Agrees

variable {r r' r'' : RollingReturn}

theorem trans (h : Agrees r r') (h' : Agrees r' r'') : Agrees r r'' where
  length := h.length.trans h'.length
  head := h.head.trans h'.head
  size := h.size.trans h'.size
  size_le := h.size_le
  filling := h.filling
  entry := fun i hi => (h.entry i hi).trans (h'.entry i (by rw [← h.size, ← h.length]; exact hi))

theorem push (h : Agrees r r') (value : ℚ) : Agrees (r.push value) (r'.push value) := by
  have hlen := h.length
  have hle := h.size_le
  refine ⟨?_, ?_, ?_, ?_, fun hlt => ?_, fun i hi => ?_⟩ <;>
    simp only [RollingReturn.push, List.length_set] at *
  · exact hlen
  · rw [h.head, hlen]
  · rw [h.size, hlen]
  · split <;> omega
  · by_cases hfull : r.size < r.values.length
    · rw [if_pos hfull] at hlt ⊢
      rw [h.filling hfull, Nat.mod_eq_of_lt hlt]
    · rw [if_neg hfull] at hlt
      exact absurd hlt hfull
  · rw [← h.head]
    by_cases hhead : r.head = i
    · have hi' := r.head_lt
      rw [← hhead, List.getElem?_set_self hi', List.getElem?_set_self (by omega)]
    · rw [List.getElem?_set_ne hhead, List.getElem?_set_ne hhead]
      by_cases hlt : i < r.values.length
      · refine h.entry i fun hfull => ?_
        have hfilling := h.filling hfull
        rw [if_pos hfull] at hi
        by_cases hnext : r.size + 1 < r.values.length
        · have := hi hnext
          omega
        · omega
      · rw [List.getElem?_eq_none (by omega), List.getElem?_eq_none (by omega)]

theorem ready (h : Agrees r r') : r.ready = r'.ready := by
  unfold RollingReturn.ready
  rw [h.size, h.length]

theorem value (h : Agrees r r') : r.value = r'.value := by
  unfold RollingReturn.value
  rw [← h.ready]
  by_cases hready : r.ready
  · have hfull : r.size = r.values.length := of_decide_eq_true hready
    have hentry : ∀ i, r.values[i]? = r'.values[i]? := fun i => h.entry i fun hlt => by omega
    simp only [hready, Bool.not_true, Bool.false_eq_true, if_false, List.getD_eq_getElem?_getD]
    rw [hentry, hentry, h.head, h.length]
  · rw [if_pos (by simp [hready]), if_pos (by simp [hready])]

/-- A reset buffer agrees with any that is empty and as long. -/
theorem of_empty (hlen : r.values.length = r'.values.length) (hhead : r.head = 0) (hsize : r.size = 0)
    (hhead' : r'.head = 0) (hsize' : r'.size = 0) : Agrees r r' where
  length := hlen
  head := hhead.trans hhead'.symm
  size := hsize.trans hsize'.symm
  size_le := by omega
  filling := fun _ => hhead.trans hsize.symm
  entry := fun i hi => by
    have hpos := r.head_lt
    have := hi (by omega)
    omega

end Agrees

end Sentum.Market.RollingReturn

/-! ## What the factory builds -/

namespace Sentum.Strategy.StrategyFactory

open Sentum.Risk (bind_eq_ok)

theorem createSingle_cases {type : String} {p : Json} {s : IStrategy} (h : createSingle type p = .ok s) :
    (∃ lookback threshold, s = .momentum (.init lookback threshold)) ∨
    (∃ fast slow threshold t, TrendStrategy.init fast slow threshold = .ok t ∧ s = .trend t) ∨
    (∃ period oversold t, MeanReversionStrategy.init period oversold = .ok t ∧ s = .meanReversion t) ∨
    (∃ lookback buffer, s = .breakout (.init lookback buffer)) ∨
    ∃ fast slow period threshold t,
      MultiTimeframeTrendStrategy.init fast slow period threshold = .ok t ∧ s = .multiTimeframeTrend t := by
  unfold createSingle at h
  split at h
  · obtain ⟨lookback, -, h⟩ := bind_eq_ok h
    obtain ⟨threshold, -, h⟩ := bind_eq_ok h
    cases h
    exact .inl ⟨lookback, threshold, rfl⟩
  · split at h
    · obtain ⟨fast, -, h⟩ := bind_eq_ok h
      obtain ⟨slow, -, h⟩ := bind_eq_ok h
      obtain ⟨threshold, -, h⟩ := bind_eq_ok h
      obtain ⟨t, hinit, h⟩ := bind_eq_ok h
      cases h
      exact .inr (.inl ⟨fast, slow, threshold, t, hinit, rfl⟩)
    · split at h
      · obtain ⟨period, -, h⟩ := bind_eq_ok h
        obtain ⟨oversold, -, h⟩ := bind_eq_ok h
        obtain ⟨t, hinit, h⟩ := bind_eq_ok h
        cases h
        exact .inr (.inr (.inl ⟨period, oversold, t, hinit, rfl⟩))
      · split at h
        · obtain ⟨lookback, -, h⟩ := bind_eq_ok h
          obtain ⟨buffer, -, h⟩ := bind_eq_ok h
          cases h
          exact .inr (.inr (.inr (.inl ⟨lookback, buffer, rfl⟩)))
        · split at h
          · obtain ⟨fast, -, h⟩ := bind_eq_ok h
            obtain ⟨slow, -, h⟩ := bind_eq_ok h
            obtain ⟨period, -, h⟩ := bind_eq_ok h
            obtain ⟨threshold, -, h⟩ := bind_eq_ok h
            obtain ⟨t, hinit, h⟩ := bind_eq_ok h
            cases h
            exact .inr (.inr (.inr (.inr ⟨fast, slow, period, threshold, t, hinit, rfl⟩)))
          · cases h

/-- What every single strategy has, and an ensemble whose members have it. -/
structure Hereditary (P : IStrategy → Prop) : Prop where
  single : ∀ {type p s}, createSingle type p = .ok s → P s
  ensemble : ∀ (threshold : ℚ) {members : List (IStrategy × ℚ)}, (∀ m ∈ members, 0 < m.2 ∧ P m.1) →
    P (.ensemble threshold members)

variable {P : IStrategy → Prop}

mutual

/-- **The factory's induction.** -/
theorem Hereditary.create (hP : Hereditary P) : ∀ (j : Json) {s : IStrategy}, StrategyFactory.create j = .ok s → P s
  | .object entries, s, h => by
    rw [StrategyFactory.create] at h
    split at h
    · cases h
    · split at h
      · split at h
        · cases h
        · exact hP.single h
      · split at h
        · cases h
        · next threshold _ =>
          cases hmembers : StrategyFactory.createMembers entries with
          | error what =>
            rw [hmembers] at h
            cases h
          | ok members =>
            rw [hmembers] at h
            cases h
            exact hP.ensemble threshold (hP.createMembers entries hmembers)
  | .null, _, h => by cases h
  | .boolean _, _, h => by cases h
  | .string _, _, h => by cases h
  | .array _, _, h => by cases h
  | .integer _, _, h => by cases h
  | .float _, _, h => by cases h

theorem Hereditary.createMembers (hP : Hereditary P) :
    ∀ (entries : List (String × Json)) {members : List (IStrategy × ℚ)},
    StrategyFactory.createMembers entries = .ok members → ∀ m ∈ members, 0 < m.2 ∧ P m.1
  | [], _, h => by cases h
  | (key, v) :: rest, members, h => by
    unfold StrategyFactory.createMembers at h
    split at h
    · split at h
      · next x xs => exact hP.createAll (x :: xs) (List.forall_mem_nil _) h
      · cases h
    · exact hP.createMembers rest h

theorem Hereditary.createAll (hP : Hereditary P) : ∀ (l : List Json) {before members : List (IStrategy × ℚ)},
    (∀ m ∈ before, 0 < m.2 ∧ P m.1) → StrategyFactory.createAll l before = .ok members → ∀ m ∈ members, 0 < m.2 ∧ P m.1
  | [], _, _, hbefore, h => by
    rw [StrategyFactory.createAll] at h
    cases h
    exact hbefore
  | x :: xs, before, members, hbefore, h => by
    rw [StrategyFactory.createAll] at h
    split at h
    · cases h
    · next weight _ =>
      split at h
      · cases h
      · next s hs =>
        split at h
        · cases h
        · next after hadd =>
          refine hP.createAll xs ?_ h
          unfold add at hadd
          split at hadd
          · cases hadd
          · next hweight =>
            cases hadd
            intro m hm
            rcases List.mem_append.mp hm with hm | hm
            · exact hbefore m hm
            · rw [List.mem_singleton.mp hm]
              exact ⟨not_not.mp hweight, hP.create x hs⟩

end

end Sentum.Strategy.StrategyFactory

namespace Sentum.Strategy.IStrategy

open Sentum Market

/-! ## Strategies that answer alike -/

mutual

/-- Equal, up to what a reset leaves in the buffers of rolling returns. -/
inductive Same : IStrategy → IStrategy → Prop
  | momentum {s t : MomentumStrategy} : s.entryThreshold = t.entryThreshold →
      s.rollingReturn.Agrees t.rollingReturn → Same (.momentum s) (.momentum t)
  | trend (s : TrendStrategy) : Same (.trend s) (.trend s)
  | meanReversion (s : MeanReversionStrategy) : Same (.meanReversion s) (.meanReversion s)
  | breakout (s : BreakoutStrategy) : Same (.breakout s) (.breakout s)
  | multiTimeframeTrend (s : MultiTimeframeTrendStrategy) :
      Same (.multiTimeframeTrend s) (.multiTimeframeTrend s)
  | ensemble {members members' : List (IStrategy × ℚ)} (threshold : ℚ) : SameMembers members members' →
      Same (.ensemble threshold members) (.ensemble threshold members')

inductive SameMembers : List (IStrategy × ℚ) → List (IStrategy × ℚ) → Prop
  | nil : SameMembers [] []
  | cons {s t : IStrategy} {rest rest' : List (IStrategy × ℚ)} (weight : ℚ) : Same s t →
      SameMembers rest rest' → SameMembers ((s, weight) :: rest) ((t, weight) :: rest')

end

mutual

theorem Same.trans : ∀ {s t u : IStrategy}, Same s t → Same t u → Same s u
  | _, _, _, .momentum hthreshold h, .momentum hthreshold' h' =>
    .momentum (hthreshold.trans hthreshold') (h.trans h')
  | _, _, _, .trend _, h => h
  | _, _, _, .meanReversion _, h => h
  | _, _, _, .breakout _, h => h
  | _, _, _, .multiTimeframeTrend _, h => h
  | _, _, _, .ensemble threshold h, .ensemble _ h' => .ensemble threshold (h.trans h')

theorem SameMembers.trans : ∀ {l m n : List (IStrategy × ℚ)}, SameMembers l m → SameMembers m n → SameMembers l n
  | _, _, _, .nil, h => h
  | _, _, _, .cons weight h hrest, .cons _ h' hrest' => .cons weight (h.trans h') (hrest.trans hrest')

end

theorem momentum_same {s t : MomentumStrategy} (hthreshold : s.entryThreshold = t.entryThreshold)
    (h : s.rollingReturn.Agrees t.rollingReturn) (price : ℚ) (at_ : TimePoint) :
    Same (.momentum (s.onPrice price at_).1) (.momentum (t.onPrice price at_).1) ∧
      (s.onPrice price at_).2 = (t.onPrice price at_).2 := by
  have hpush := h.push price
  refine ⟨?_, MomentumStrategy.onPrice_snd_congr at_ hthreshold hpush.ready hpush.value⟩
  rw [MomentumStrategy.onPrice_fst, MomentumStrategy.onPrice_fst]
  exact .momentum hthreshold hpush

mutual

/-- **Step lemma.**  Strategies that are the same give the same signal and stay
the same. -/
theorem Same.onEvent : ∀ {s t : IStrategy}, Same s t → ∀ e,
    Same (onEvent s e).1 (onEvent t e).1 ∧ (onEvent s e).2 = (onEvent t e).2
  | _, _, .momentum hthreshold h, e => by
    simp only [IStrategy.onEvent]
    exact momentum_same hthreshold h e.tradedAt e.timestamp
  | _, _, .trend s, e => by
    refine ⟨?_, rfl⟩
    rw [IStrategy.onEvent]
    exact .trend _
  | _, _, .meanReversion s, e => by
    refine ⟨?_, rfl⟩
    rw [IStrategy.onEvent]
    exact .meanReversion _
  | _, _, .breakout s, e => by
    refine ⟨?_, rfl⟩
    rw [IStrategy.onEvent]
    exact .breakout _
  | _, _, .multiTimeframeTrend s, e => by
    refine ⟨?_, rfl⟩
    rw [IStrategy.onEvent]
    exact .multiTimeframeTrend _
  | _, _, .ensemble threshold h, e => by
    obtain ⟨hmembers, hvotes⟩ := h.vote e {}
    simp only [IStrategy.onEvent]
    rw [hvotes]
    exact ⟨.ensemble threshold hmembers, rfl⟩

theorem SameMembers.vote : ∀ {l m : List (IStrategy × ℚ)}, SameMembers l m → ∀ e votes,
    SameMembers (vote l e votes).1 (vote m e votes).1 ∧ (vote l e votes).2 = (vote m e votes).2
  | _, _, .nil, e, votes => by
    simp only [IStrategy.vote]
    exact ⟨.nil, trivial⟩
  | _, _, .cons weight h hrest, e, votes => by
    obtain ⟨hstate, hsignal⟩ := h.onEvent e
    simp only [IStrategy.vote]
    rw [hsignal]
    obtain ⟨hmembers, hvotes⟩ := hrest.vote e (votes.add (IStrategy.onEvent _ e).2 weight)
    exact ⟨.cons weight hstate hmembers, hvotes⟩

end

/-- **Bisimulation.** -/
theorem Same.signals {s t : IStrategy} (h : Same s t) (events : List MarketEvent) :
    signals s events = signals t events := by
  induction events generalizing s t with
  | nil => rfl
  | cons e rest ih =>
    obtain ⟨hstate, hsignal⟩ := h.onEvent e
    simp only [IStrategy.signals]
    rw [hsignal, ih hstate]

/-! ## Resets -/

theorem reset_push (a : TimeframeAggregator) (e : MarketEvent) : (a.push e).1.reset = a.reset := by
  unfold TimeframeAggregator.push
  dsimp only
  split
  · rfl
  · split <;> rfl

theorem reset_pushFast (s : MultiTimeframeTrendStrategy) (e : MarketEvent) : (s.pushFast e).reset = s.reset := by
  have hframe := reset_push s.fastFrame e
  unfold MultiTimeframeTrendStrategy.pushFast MultiTimeframeTrendStrategy.reset
  dsimp only
  split <;> simp only [hframe]

theorem reset_pushSlow (s : MultiTimeframeTrendStrategy) (e : MarketEvent) : (s.pushSlow e).reset = s.reset := by
  have hframe := reset_push s.slowFrame e
  unfold MultiTimeframeTrendStrategy.pushSlow MultiTimeframeTrendStrategy.reset
  dsimp only
  split <;> simp only [hframe]

mutual

/-- A reset forgets an event: it puts back what depends on the parameters only. -/
theorem reset_onEvent : ∀ (s : IStrategy) (e : MarketEvent), Same (reset (onEvent s e).1) (reset s)
  | .momentum s, e => by
    simp only [onEvent, reset]
    have hstate : (s.onPrice e.tradedAt e.timestamp).1 =
        { s with rollingReturn := s.rollingReturn.push e.tradedAt } := by
      unfold MomentumStrategy.onPrice
      dsimp only
      split
      · rfl
      · split <;> rfl
    rw [hstate]
    exact .momentum rfl (.of_empty List.length_set rfl rfl rfl rfl)
  | .trend s, e => by
    simp only [onEvent, reset]
    have hreset : (s.onPrice e.tradedAt e.timestamp).1.reset = s.reset := by
      unfold TrendStrategy.onPrice
      dsimp only
      split
      · rfl
      · split <;> rfl
    rw [hreset]
    exact .trend _
  | .meanReversion s, e => by
    simp only [onEvent, reset]
    have hreset : (s.onPrice e.tradedAt e.timestamp).1.reset = s.reset := by
      unfold MeanReversionStrategy.onPrice
      dsimp only
      split <;> rfl
    rw [hreset]
    exact .meanReversion _
  | .breakout s, e => by
    simp only [onEvent, reset]
    have hreset : (s.onPrice e.tradedAt e.timestamp).1.reset = s.reset := by
      unfold BreakoutStrategy.onPrice
      dsimp only
      split
      · rfl
      · split <;> rfl
    rw [hreset]
    exact .breakout _
  | .multiTimeframeTrend s, e => by
    simp only [onEvent, reset]
    have hreset : (s.onEvent e).1.reset = s.reset := by
      have hstate : (s.onEvent e).1 = (s.pushFast e).pushSlow e := by
        unfold MultiTimeframeTrendStrategy.onEvent
        dsimp only
        split
        · rfl
        · split <;> rfl
      rw [hstate, reset_pushSlow, reset_pushFast]
    rw [hreset]
    exact .multiTimeframeTrend _
  | .ensemble threshold members, e => by
    simp only [onEvent, reset]
    exact .ensemble threshold (resetMembers_vote members e {})

theorem resetMembers_vote : ∀ (members : List (IStrategy × ℚ)) (e : MarketEvent) (votes : Votes),
    SameMembers (resetMembers (vote members e votes).1) (resetMembers members)
  | [], e, votes => by
    simp only [vote, resetMembers]
    exact .nil
  | (s, weight) :: rest, e, votes => by
    simp only [vote, resetMembers]
    exact .cons weight (reset_onEvent s e) (resetMembers_vote rest e _)

end

/-- A reset forgets the whole history. -/
theorem reset_feed (s : IStrategy) (history : List MarketEvent) (h : Same (reset s) s) :
    Same (reset (feed s history)) s := by
  induction history using List.reverseRecOn with
  | nil => exact h
  | append_singleton history e ih =>
    rw [feed_concat]
    exact (reset_onEvent _ e).trans ih

/-! ## What the factory builds is as after a reset -/

theorem createSingle_reset {type : String} {p : Json} {s : IStrategy}
    (h : StrategyFactory.createSingle type p = .ok s) : Same (reset s) s := by
  rcases StrategyFactory.createSingle_cases h with ⟨lookback, threshold, rfl⟩ | ⟨fast, slow, threshold, t, hinit, rfl⟩ |
    ⟨period, oversold, t, hinit, rfl⟩ | ⟨lookback, buffer, rfl⟩ | ⟨fast, slow, period, threshold, t, hinit, rfl⟩
  · rw [reset]
    exact .momentum rfl (.of_empty rfl rfl rfl rfl rfl)
  · unfold TrendStrategy.init at hinit
    split at hinit
    · cases hinit
    · cases hinit
      rw [reset]
      exact .trend _
  · unfold MeanReversionStrategy.init at hinit
    split at hinit
    · cases hinit
    · cases hinit
      rw [reset]
      exact .meanReversion _
  · rw [reset]
    exact .breakout _
  · unfold MultiTimeframeTrendStrategy.init at hinit
    split at hinit
    · cases hinit
    · cases hinit
      rw [reset]
      exact .multiTimeframeTrend _

theorem resetMembers_same {members : List (IStrategy × ℚ)} (h : ∀ m ∈ members, Same (reset m.1) m.1) :
    SameMembers (resetMembers members) members := by
  induction members with
  | nil => exact .nil
  | cons m rest ih =>
    have hrest := ih fun m' hm' => h m' (List.mem_cons_of_mem m hm')
    exact .cons m.2 (h m List.mem_cons_self) hrest

theorem create_reset {definition : Json} {s : IStrategy} (h : StrategyFactory.create definition = .ok s) :
    Same (reset s) s := by
  have hP : StrategyFactory.Hereditary fun s => Same (reset s) s :=
    { single := createSingle_reset
      ensemble := fun threshold members hmembers => by
        rw [reset]
        exact .ensemble threshold (resetMembers_same fun m hm => (hmembers m hm).2) }
  exact hP.create definition h

/-- **Main result: a reset is a fresh start.**  After any history and a reset, a
strategy the factory has built answers every continuation as a new one does. -/
theorem reset_fresh {definition : Json} {s : IStrategy} (h : StrategyFactory.create definition = .ok s)
    (history continuation : List MarketEvent) :
    signals (reset (feed s history)) continuation = signals s continuation :=
  (reset_feed s history (create_reset h)).signals continuation

/-- An ensemble in an ensemble. -/
def nestedEnsemble : Json :=
  let momentum : Json := .object [("parameters", .object [("lookback", .integer 2)])]
  let inner : Json := .object [("type", .string "ensemble"), ("members", .array [momentum])]
  .object [("type", .string "ensemble"), ("threshold", .float (1 / 2)), ("members", .array [inner, momentum])]

theorem reset_fresh_nested : ∃ s, StrategyFactory.create nestedEnsemble = .ok s ∧
    signals (reset (feed s [{ price := 1 }, { price := 3 }])) [{ price := 2 }, { price := 4 }] =
      signals s [{ price := 2 }, { price := 4 }] := by
  have hok : (StrategyFactory.create nestedEnsemble).isOk = true := by decide +kernel
  cases h : StrategyFactory.create nestedEnsemble with
  | error what =>
    rw [h] at hok
    cases hok
  | ok s => exact ⟨s, rfl, reset_fresh h _ _⟩

end Sentum.Strategy.IStrategy
