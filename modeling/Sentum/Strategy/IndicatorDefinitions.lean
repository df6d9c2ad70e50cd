import Mathlib.Algebra.BigOperators.Group.List.Basic
import Mathlib.Algebra.Order.BigOperators.Group.List
import Mathlib.Algebra.Order.Field.Rat
import Mathlib.Data.List.DropRight
import Mathlib.Tactic.FieldSimp
import Sentum.Market.RollingWindow
import Sentum.Market.WilderIndex
import Sentum.Strategy.StrategyFramework

/-!
# Indicators and their definitions

Each indicator keeps a summary of what was pushed.  It is compared with the
definition on the whole history: the mean of the last values, the return
between the ends of a window, the last prices, and Wilder's smoothed averages
seeded with the mean of the first period (`indicators_exact`).
-/

namespace Sentum.Market

/-- A value, or a reset. -/
inductive Input (α : Type*) where
  | push (value : α)
  | reset

/-- The values since the last reset. -/
def Input.sinceReset {α : Type*} (inputs : List (Input α)) : List α :=
  inputs.foldl (fun values input =>
    match input with
    | .push value => values ++ [value]
    | .reset => []) []

/-! ## The last values of a list -/

section Last

variable {α : Type*} {n : Nat} (xs : List α) (x : α)

theorem rtake_concat_of_lt (h : xs.length < n) : (xs ++ [x]).rtake n = xs.rtake n ++ [x] := by
  unfold List.rtake
  rw [List.length_append, List.length_singleton, Nat.sub_eq_zero_of_le h, Nat.sub_eq_zero_of_le h.le]
  rfl

/-- A full window loses its first value. -/
theorem rtake_concat_of_le (hn : 0 < n) (h : n ≤ xs.length) :
    (xs ++ [x]).rtake n = (xs.rtake n).tail ++ [x] := by
  unfold List.rtake
  rw [List.length_append, List.length_singleton, List.tail_drop, List.drop_append_of_le_length (by omega)]
  congr 2
  omega

theorem head_rtake : (xs.rtake n).head? = xs[xs.length - n]? := by
  unfold List.rtake
  rw [List.head?_drop]

theorem length_rtake_of_le (h : n ≤ xs.length) : (xs.rtake n).length = n := by
  unfold List.rtake
  rw [List.length_drop]
  omega

end Last

/-! ## The simple moving average -/

/-- The mean, 0 for no values. -/
def mean (values : List ℚ) : ℚ := values.sum / values.length

namespace RollingSma

def after (period : Nat) (values : List ℚ) : RollingSma := values.foldl (fun r value => (r.push value).1) (init period)

/-- The buffer is written like that of a rolling return. -/
def ring (r : RollingSma) : RollingReturn :=
  { values := r.values, head := r.head, size := r.size, head_lt := r.head_lt }

theorem ring_push (r : RollingSma) (value : ℚ) : (r.push value).1.ring = r.ring.push value := rfl

/-- **Invariant**: after the pushes `xs`. -/
structure Averages (r : RollingSma) (xs : List ℚ) : Prop where
  ring : r.ring.Holds xs
  sum : r.sum = (xs.rtake r.values.length).sum

theorem averages_init (period : Nat) : Averages (init period) [] where
  ring :=
    { head := (Nat.zero_mod _).symm
      size := (Nat.zero_min _).symm
      entry := fun j hj => absurd hj (Nat.not_lt_zero j) }
  sum := by
    rw [List.rtake_nil]
    rfl

/-- The value the head of a full buffer points at is the oldest of the window. -/
theorem Averages.oldest {r : RollingSma} {xs : List ℚ} (h : Averages r xs) (hfull : r.values.length ≤ xs.length) :
    (xs.rtake r.values.length).head? = some (r.values.getD r.head 0) := by
  have hpos : 0 < r.values.length := Nat.lt_of_le_of_lt (Nat.zero_le _) r.head_lt
  have hslot : r.head = (xs.length - r.values.length) % r.values.length := by
    rw [← Nat.mod_eq_sub_mod hfull]
    exact h.ring.head
  have hentry : r.values[(xs.length - r.values.length) % r.values.length]? = xs[xs.length - r.values.length]? :=
    h.ring.entry _ (by omega) (by show _ ≤ _ - r.values.length + r.values.length; omega)
  rw [head_rtake xs, ← hentry, ← hslot, List.getD_eq_getElem?_getD, List.getElem?_eq_getElem r.head_lt]
  rfl

/-- **Step lemma.** -/
theorem Averages.push {r : RollingSma} {xs : List ℚ} (h : Averages r xs) (value : ℚ) :
    Averages (r.push value).1 (xs ++ [value]) where
  ring := by
    rw [ring_push]
    exact h.ring.push value
  sum := by
    have hsize : r.size = min xs.length r.values.length := h.ring.size
    have hlen : (r.push value).1.values.length = r.values.length := List.length_set
    have hsum : (r.push value).1.sum =
        if r.size < r.values.length then r.sum + value else r.sum - r.values.getD r.head 0 + value := rfl
    have hpos : 0 < r.values.length := Nat.lt_of_le_of_lt (Nat.zero_le _) r.head_lt
    rw [hlen, hsum, h.sum]
    split
    · next hroom =>
      rw [rtake_concat_of_lt xs value (by omega), List.sum_append, List.sum_singleton]
    · next hroom =>
      have hfull : r.values.length ≤ xs.length := by omega
      obtain ⟨oldest, rest, hwindow⟩ : ∃ oldest rest, xs.rtake r.values.length = oldest :: rest := by
        refine List.exists_cons_of_ne_nil (List.ne_nil_of_length_pos ?_)
        rw [length_rtake_of_le xs hfull]
        exact hpos
      have holdest := h.oldest hfull
      rw [rtake_concat_of_le xs value hpos hfull, hwindow]
      rw [hwindow, List.head?_cons, Option.some.injEq] at holdest
      rw [← holdest, List.sum_cons, List.tail_cons, List.sum_append, List.sum_singleton, add_sub_cancel_left]

/-- **Run lemma.** -/
theorem averages_after (period : Nat) (xs : List ℚ) :
    Averages (after period xs) xs ∧ (after period xs).values.length = max 1 period :=
  Run.exec_history (fun before r => Averages r before ∧ r.values.length = max 1 period)
    ⟨averages_init period, List.length_replicate⟩
    (fun _ _ x h => ⟨h.1.push x, List.length_set.trans h.2⟩) xs

/-- **The moving average is the mean of the last values.** -/
theorem current_after (period : Nat) (xs : List ℚ) :
    (after period xs).current = mean (xs.rtake (min xs.length (max 1 period))) := by
  obtain ⟨h, hlen⟩ := averages_after period xs
  have hsize : (after period xs).size = min xs.length (max 1 period) := by
    have hring : (after period xs).size = min xs.length (after period xs).values.length := h.ring.size
    rw [hring, hlen]
  have hwindow : xs.rtake (max 1 period) = xs.rtake (min xs.length (max 1 period)) := by
    unfold List.rtake
    congr 1
    omega
  unfold current mean
  rw [length_rtake_of_le xs (Nat.min_le_left _ _), h.sum, hlen, hsize, hwindow]
  split
  · next hzero => rw [hzero, Nat.cast_zero, div_zero]
  · rfl

end RollingSma

/-! ## The rolling return -/

namespace RollingReturn

def apply (r : RollingReturn) : Input ℚ → RollingReturn
  | .push value => r.push value
  | .reset => r.reset

def after (period : Nat) (inputs : List (Input ℚ)) : RollingReturn := inputs.foldl apply (init period)

/-- After a reset the buffer fills from its first slot. -/
theorem holds_reset (r : RollingReturn) : Holds r.reset [] where
  head := (Nat.zero_mod _).symm
  size := (Nat.zero_min _).symm
  entry j hj := absurd hj (Nat.not_lt_zero j)

/-- **Run lemma.** -/
theorem holds_after (period : Nat) (inputs : List (Input ℚ)) :
    Holds (after period inputs) (Input.sinceReset inputs) ∧ (after period inputs).values.length = max 2 period := by
  induction inputs using List.reverseRecOn with
  | nil => exact ⟨holds_init period, init_length period⟩
  | append_singleton inputs input ih =>
    have hafter : after period (inputs ++ [input]) = (after period inputs).apply input := List.foldl_concat _ _ _ _
    rw [hafter, Input.sinceReset, List.foldl_concat]
    cases input with
    | push value => exact ⟨ih.1.push value, (push_length _ value).trans ih.2⟩
    | reset => exact ⟨holds_reset _, ih.2⟩

theorem value_after (period : Nat) (inputs : List (Input ℚ)) :
    (after period inputs).value = windowReturn (max 2 period) (Input.sinceReset inputs) := by
  obtain ⟨h, hlen⟩ := holds_after period inputs
  rw [h.value, hlen]

end RollingReturn

end Sentum.Market

namespace Sentum.Strategy

open Sentum Market

namespace BreakoutStrategy

def apply (s : BreakoutStrategy) : Input (ℚ × TimePoint) → BreakoutStrategy
  | .push (price, observedAt) => (s.onPrice price observedAt).1
  | .reset => s.reset

def after (lookback : Nat) (buffer : ℚ) (inputs : List (Input (ℚ × TimePoint))) : BreakoutStrategy :=
  inputs.foldl apply (init lookback buffer)

theorem onPrice_fst (s : BreakoutStrategy) (price : ℚ) (observedAt : TimePoint) :
    (s.onPrice price observedAt).1 =
      { s with window := if s.window.length < s.lookback then s.window ++ [price] else s.window.tail ++ [price] } := by
  unfold onPrice
  split
  · rfl
  · dsimp only
    split <;> rfl

/-- **Run lemma.**  The window slides over the prices. -/
theorem window_after (lookback : Nat) (buffer : ℚ) (inputs : List (Input (ℚ × TimePoint))) :
    (after lookback buffer inputs).window = ((Input.sinceReset inputs).map Prod.fst).rtake (max 2 lookback) ∧
      (after lookback buffer inputs).lookback = max 2 lookback := by
  induction inputs using List.reverseRecOn with
  | nil => exact ⟨(List.rtake_nil _).symm, rfl⟩
  | append_singleton inputs input ih =>
    obtain ⟨hwindow, hlookback⟩ := ih
    have hafter : after lookback buffer (inputs ++ [input]) = (after lookback buffer inputs).apply input :=
      List.foldl_concat _ _ _ _
    rw [hafter, Input.sinceReset, List.foldl_concat, ← Input.sinceReset]
    cases input with
    | reset => exact ⟨(List.rtake_nil _).symm, hlookback⟩
    | push value =>
      obtain ⟨price, observedAt⟩ := value
      rw [apply, onPrice_fst, hwindow, hlookback]
      refine ⟨?_, rfl⟩
      dsimp only
      rw [List.map_append, List.map_singleton]
      generalize (Input.sinceReset inputs).map Prod.fst = prices
      by_cases hlt : prices.length < max 2 lookback
      · have hroom : (prices.rtake (max 2 lookback)).length < max 2 lookback := by
          unfold List.rtake
          rw [List.length_drop]
          omega
        rw [if_pos hroom, rtake_concat_of_lt prices price hlt]
      · have hfull : (prices.rtake (max 2 lookback)).length = max 2 lookback :=
          length_rtake_of_le prices (not_lt.mp hlt)
        rw [if_neg (by omega), rtake_concat_of_le prices price (by omega) (not_lt.mp hlt)]

end BreakoutStrategy

/-- **Main result.**  After any pushes, and any resets where there are some, each
indicator is what its definition makes of the history. -/
theorem indicators_exact :
    (∀ period values,
      (RollingSma.after period values).current = mean (values.rtake (min values.length (max 1 period)))) ∧
    (∀ period inputs,
      (RollingReturn.after period inputs).value =
        RollingReturn.windowReturn (max 2 period) (Input.sinceReset inputs)) ∧
    (∀ lookback buffer inputs,
      (BreakoutStrategy.after lookback buffer inputs).window =
        ((Input.sinceReset inputs).map Prod.fst).rtake (max 2 lookback)) ∧
    ∀ period prices price,
      let index := ((Rsi.after period prices).push price).2
      index = wilderIndex (max 1 period) (prices ++ [price]) ∧ 0 ≤ index ∧ index ≤ 100 := by
  refine ⟨RollingSma.current_after, RollingReturn.value_after, ?_, ?_⟩
  · intro lookback buffer inputs
    exact (BreakoutStrategy.window_after lookback buffer inputs).1
  · intro period prices price index
    have hindex : index = wilderIndex (max 1 period) (prices ++ [price]) := Rsi.push_after period prices price
    rw [hindex]
    exact ⟨rfl, wilderIndex_mem (Nat.le_max_left 1 period) _⟩

/-- A period of 0 counts as 1, a lookback of 1 as 2. -/
theorem indicators_least_period :
    (RollingSma.after 0 [5]).current ≠ mean ([5].rtake (min 1 0)) ∧
    (BreakoutStrategy.after 1 0 [.push (3, 0), .push (4, 1)]).window ≠ [3, 4].rtake 1 := by
  decide +kernel

end Sentum.Strategy
