import Mathlib.Data.List.GetD
import Sentum.Lib.RingIndex
import Sentum.Market.IncrementalIndicators

/-!
# The rolling return as a function of what was pushed

The buffer holds the last pushes, each in the slot of its position
(`Holds`), so the return is that between the ends of a window over the pushes
(`Holds.value`).  Pushes before the window do not matter
(`windowReturn_append`).
-/

namespace Sentum.Market.RollingReturn

/-- The return between the ends of the last `n` pushes. -/
def windowReturn (n : Nat) (xs : List ℚ) : ℚ :=
  if xs.length < n then 0
  else
    let first := xs.getD (xs.length - n) 0
    let last := xs.getD (xs.length - 1) 0
    if 0 < first then (last - first) / first else 0

/-- **Invariant**: the buffer after these pushes. -/
structure Holds (r : RollingReturn) (xs : List ℚ) : Prop where
  head : r.head = xs.length % r.values.length
  size : r.size = min xs.length r.values.length
  entry : ∀ j, j < xs.length → xs.length ≤ j + r.values.length → r.values[j % r.values.length]? = xs[j]?

theorem holds_init (period : Nat) : Holds (init period) [] where
  head := (Nat.zero_mod _).symm
  size := (Nat.zero_min _).symm
  entry j hj := absurd hj (Nat.not_lt_zero j)

theorem init_length (period : Nat) : (init period).values.length = max 2 period := List.length_replicate

theorem push_length (r : RollingReturn) (value : ℚ) : (r.push value).values.length = r.values.length :=
  List.length_set

/-- **Step lemma.**  A push takes the slot of its position, which the positions
of the last lap do not share. -/
theorem Holds.push {r : RollingReturn} {xs : List ℚ} (h : Holds r xs) (value : ℚ) :
    Holds (r.push value) (xs ++ [value]) where
  head := by
    rw [push_length, List.length_append, List.length_singleton, ← RingIndex.succ_mod, ← h.head]
    rfl
  size := by
    have hsize := h.size
    rw [push_length, List.length_append, List.length_singleton]
    show (if r.size < r.values.length then r.size + 1 else r.size) = _
    split <;> omega
  entry j hj hlap := by
    have hhead := h.head
    have hlt := r.head_lt
    rw [push_length] at hlap ⊢
    rw [List.length_append, List.length_singleton] at hj hlap
    show (r.values.set r.head value)[j % r.values.length]? = (xs ++ [value])[j]?
    by_cases hlast : j = xs.length
    · rw [hlast, ← hhead, List.getElem?_set_self hlt, List.getElem?_append_right (Nat.le_refl _), Nat.sub_self]
      rfl
    · have hne : r.head ≠ j % r.values.length := by
        intro heq
        have hslot : xs.length % r.values.length = j % r.values.length := by rw [← hhead, heq]
        have hpos := @RingIndex.eq_of_mod_eq r.values.length xs.length j (xs.length + 1 - r.values.length)
          (by omega) (by omega) (by omega) (by omega) hslot
        exact hlast hpos.symm
      rw [List.getElem?_set_ne hne, List.getElem?_append_left (by omega)]
      exact h.entry j (by omega) (by omega)

theorem Holds.ready {r : RollingReturn} {xs : List ℚ} (h : Holds r xs) :
    r.ready = decide (r.values.length ≤ xs.length) := by
  have hsize := h.size
  unfold RollingReturn.ready
  rw [decide_eq_decide]
  omega

/-- **The return is that of the window.** -/
theorem Holds.value {r : RollingReturn} {xs : List ℚ} (h : Holds r xs) :
    r.value = windowReturn r.values.length xs := by
  have hhead := h.head
  have hlt := r.head_lt
  unfold RollingReturn.value windowReturn
  rw [h.ready]
  by_cases hready : r.values.length ≤ xs.length
  · have hfirst : r.values.getD r.head 0 = xs.getD (xs.length - r.values.length) 0 := by
      have hslot : r.head = (xs.length - r.values.length) % r.values.length := by
        rw [hhead, ← Nat.mod_eq_sub_mod hready]
      rw [List.getD_eq_getElem?_getD, List.getD_eq_getElem?_getD, hslot, h.entry _ (by omega) (by omega)]
    have hlast : r.values.getD ((r.head + r.values.length - 1) % r.values.length) 0 =
        xs.getD (xs.length - 1) 0 := by
      rw [hhead, RingIndex.back_mod (by omega) (by omega), List.getD_eq_getElem?_getD,
        List.getD_eq_getElem?_getD, h.entry _ (by omega) (by omega)]
    have hfull : ¬ (!decide (r.values.length ≤ xs.length)) = true := by simp [hready]
    rw [if_neg hfull, if_neg (not_lt.mpr hready), hfirst, hlast]
  · have hfilling : (!decide (r.values.length ≤ xs.length)) = true := by simp [hready]
    rw [if_pos hfilling, if_pos (not_le.mp hready)]

/-- What is before a full window does not matter. -/
theorem windowReturn_append {n : Nat} (hn : 0 < n) (older : List ℚ) {xs : List ℚ} (h : n ≤ xs.length) :
    windowReturn n (older ++ xs) = windowReturn n xs := by
  have hget : ∀ k, 0 < k → k ≤ xs.length →
      (older ++ xs).getD ((older ++ xs).length - k) 0 = xs.getD (xs.length - k) 0 := by
    intro k hk hle
    have hpos : (older ++ xs).length - k = older.length + (xs.length - k) := by
      rw [List.length_append]
      omega
    rw [hpos, List.getD_append_right _ _ _ _ (by omega), Nat.add_sub_cancel_left]
  have hlong : ¬ (older ++ xs).length < n := by
    rw [List.length_append]
    omega
  unfold windowReturn
  rw [hget n hn h, hget 1 (by omega) (by omega), if_neg hlong, if_neg (not_lt.mpr h)]

end Sentum.Market.RollingReturn
