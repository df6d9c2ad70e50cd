import Mathlib.Algebra.Order.Ring.Rat
import Mathlib.Data.Rat.Defs
import Mathlib.Tactic.Linarith

/-!
# Incremental indicators

The rolling return and the simple moving average over a ring buffer, the
exponential moving average and the relative strength index, each with the state
the source keeps between pushes.
-/

namespace Sentum.Market

/-- The ring buffer always has a slot to write next. -/
structure RollingReturn where
  values : List ℚ
  head : Nat := 0
  size : Nat := 0
  head_lt : head < values.length

namespace RollingReturn

def init (period : Nat) : RollingReturn where
  values := List.replicate (max 2 period) 0
  head_lt := by
    rw [List.length_replicate]
    omega

def push (r : RollingReturn) (value : ℚ) : RollingReturn where
  values := r.values.set r.head value
  head := (r.head + 1) % r.values.length
  size := if r.size < r.values.length then r.size + 1 else r.size
  head_lt := by
    rw [List.length_set]
    exact Nat.mod_lt _ (Nat.lt_of_le_of_lt (Nat.zero_le _) r.head_lt)

def ready (r : RollingReturn) : Bool := decide (r.size = r.values.length)

def value (r : RollingReturn) : ℚ :=
  if !r.ready then 0
  else
    let first := r.values.getD r.head 0
    let last := r.values.getD ((r.head + r.values.length - 1) % r.values.length) 0
    if 0 < first then (last - first) / first else 0

/-- The values stay in the buffer. -/
def reset (r : RollingReturn) : RollingReturn where
  values := r.values
  head := 0
  size := 0
  head_lt := Nat.lt_of_le_of_lt (Nat.zero_le _) r.head_lt

end RollingReturn

structure RollingSma where
  values : List ℚ
  head : Nat := 0
  size : Nat := 0
  sum : ℚ := 0
  head_lt : head < values.length

namespace RollingSma

def init (period : Nat) : RollingSma where
  values := List.replicate (max 1 period) 0
  head_lt := by
    rw [List.length_replicate]
    omega

def current (r : RollingSma) : ℚ := if r.size = 0 then 0 else r.sum / r.size

def push (r : RollingSma) (value : ℚ) : RollingSma × ℚ :=
  let r : RollingSma :=
    { values := r.values.set r.head value
      head := (r.head + 1) % r.values.length
      size := if r.size < r.values.length then r.size + 1 else r.size
      -- a full buffer gives up its oldest value first
      sum := if r.size < r.values.length then r.sum + value else r.sum - r.values.getD r.head 0 + value
      head_lt := by
        rw [List.length_set]
        exact Nat.mod_lt _ (Nat.lt_of_le_of_lt (Nat.zero_le _) r.head_lt) }
  (r, r.current)

def ready (r : RollingSma) : Bool := decide (r.size = r.values.length)

end RollingSma

structure Ema where
  alpha : ℚ
  value : ℚ := 0
  initialized : Bool := false

namespace Ema

def init (period : Nat) : Ema := { alpha := 2 / ((max 1 period : Nat) + 1) }

def push (e : Ema) (value : ℚ) : Ema :=
  if !e.initialized then { e with value, initialized := true }
  else { e with value := e.value + e.alpha * (value - e.value) }

end Ema

structure Rsi where
  period : Nat
  samples : Nat := 0
  previous : ℚ := 0
  avgGain : ℚ := 0
  avgLoss : ℚ := 0
  hasPrevious : Bool := false

namespace Rsi

def init (period : Nat) : Rsi := { period := max 1 period }

/-- The averages after one price change. -/
def average (r : Rsi) (gain loss : ℚ) : Rsi :=
  if r.samples < r.period then
    let r := { r with avgGain := r.avgGain + gain, avgLoss := r.avgLoss + loss, samples := r.samples + 1 }
    if r.samples = r.period then { r with avgGain := r.avgGain / r.period, avgLoss := r.avgLoss / r.period }
    else r
  else
    { r with
      avgGain := (r.avgGain * (r.period - 1 : Nat) + gain) / r.period
      avgLoss := (r.avgLoss * (r.period - 1 : Nat) + loss) / r.period }

def index (r : Rsi) : ℚ :=
  if r.samples < r.period then 50
  else if r.avgLoss ≤ 0 then 100
  else 100 - 100 / (1 + r.avgGain / r.avgLoss)

def push (r : Rsi) (price : ℚ) : Rsi × ℚ :=
  if !r.hasPrevious then ({ r with previous := price, hasPrevious := true }, 50)
  else
    let delta := price - r.previous
    let r := { r with previous := price }.average (max 0 delta) (max 0 (-delta))
    (r, r.index)

def ready (r : Rsi) : Bool := decide (r.period ≤ r.samples)

end Rsi

end Sentum.Market
