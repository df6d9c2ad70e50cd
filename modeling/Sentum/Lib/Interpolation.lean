import Mathlib.Algebra.Order.Field.Basic
import Mathlib.Algebra.Order.Floor.Semiring
import Mathlib.Order.Bounds.Basic
import Mathlib.Tactic.Linarith
import Mathlib.Tactic.Ring

/-!
# Linear interpolation

`interpolate v x` reads a sequence `v` between its places: on the cell from `n`
to `n + 1` it is the line through `v n` and `v (n + 1)`.  Where the sequence
never falls, its interpolation does not either, within a cell and from one cell
to the next (`interpolate_mono`).
-/

namespace Interpolation

variable {α : Type*} [Field α] [LinearOrder α] [IsStrictOrderedRing α] [FloorSemiring α]

def interpolate (v : Nat → α) (x : α) : α := v ⌊x⌋₊ + (v (⌊x⌋₊ + 1) - v ⌊x⌋₊) * (x - ⌊x⌋₊)

variable {v : Nat → α} {x y : α}

@[simp] theorem interpolate_natCast (v : Nat → α) (n : Nat) : interpolate v n = v n := by
  unfold interpolate
  rw [Nat.floor_natCast, sub_self, mul_zero, add_zero]

/-- A greater place in the same cell has no smaller value. -/
theorem interpolate_mono_cell (hv : Monotone v) (hcell : ⌊x⌋₊ = ⌊y⌋₊) (hxy : x ≤ y) :
    interpolate v x ≤ interpolate v y := by
  have hrise : 0 ≤ v (⌊y⌋₊ + 1) - v ⌊y⌋₊ := sub_nonneg.mpr (hv (Nat.le_succ _))
  have hstep := mul_le_mul_of_nonneg_left (sub_le_sub_right hxy (⌊y⌋₊ : α)) hrise
  unfold interpolate
  rw [hcell]
  linarith

section Cell

variable (hv : Monotone v) (hx : 0 ≤ x)
include hv hx

/-- The value lies between those at the ends of its cell. -/
theorem interpolate_mem_cell : v ⌊x⌋₊ ≤ interpolate v x ∧ interpolate v x ≤ v (⌊x⌋₊ + 1) := by
  have hrise : 0 ≤ v (⌊x⌋₊ + 1) - v ⌊x⌋₊ := sub_nonneg.mpr (hv (Nat.le_succ _))
  have hlo : 0 ≤ x - ⌊x⌋₊ := sub_nonneg.mpr (Nat.floor_le hx)
  have hhi : x - ⌊x⌋₊ ≤ 1 := by
    have hlt := Nat.lt_floor_add_one x
    linarith
  have hpart := mul_le_of_le_one_right hrise hhi
  have hnonneg := mul_nonneg hrise hlo
  unfold interpolate
  constructor <;> linarith

theorem interpolate_mono (hxy : x ≤ y) : interpolate v x ≤ interpolate v y := by
  rcases (Nat.floor_mono hxy).eq_or_lt with hcell | hcell
  · exact interpolate_mono_cell hv hcell hxy
  · calc interpolate v x ≤ v (⌊x⌋₊ + 1) := (interpolate_mem_cell hv hx).2
      _ ≤ v ⌊y⌋₊ := hv hcell
      _ ≤ interpolate v y := (interpolate_mem_cell hv (hx.trans hxy)).1

end Cell

/-- Up to place `n` the values are between the first one and that of `n`. -/
theorem interpolate_mem (hv : Monotone v) (hx : 0 ≤ x) {n : Nat} (hn : x ≤ n) :
    v 0 ≤ interpolate v x ∧ interpolate v x ≤ v n := by
  have hlo := interpolate_mono hv le_rfl hx
  have hhi := interpolate_mono hv hx hn
  rw [← Nat.cast_zero, interpolate_natCast] at hlo
  rw [interpolate_natCast] at hhi
  exact ⟨hlo, hhi⟩

/-- The two ends of a cell, with `⌈x⌉` for the second one, as it is often computed. -/
theorem interpolate_eq_ite (v : Nat → α) (hx : 0 ≤ x) :
    interpolate v x =
      if ⌊x⌋₊ = ⌈x⌉₊ then v ⌊x⌋₊ else v ⌊x⌋₊ * (1 - (x - ⌊x⌋₊)) + v ⌈x⌉₊ * (x - ⌊x⌋₊) := by
  by_cases h : ⌊x⌋₊ = ⌈x⌉₊
  · have hge : x ≤ ⌊x⌋₊ := by
      rw [h]
      exact Nat.le_ceil x
    have hplace : x - ⌊x⌋₊ = 0 := sub_eq_zero.mpr (hge.antisymm (Nat.floor_le hx))
    rw [if_pos h, interpolate, hplace, mul_zero, add_zero]
  · have hceil : ⌈x⌉₊ = ⌊x⌋₊ + 1 := by
      have hle := Nat.ceil_le_floor_add_one x
      have hfloor := Nat.floor_le_ceil x
      omega
    rw [if_neg h, hceil, interpolate]
    ring

/-- **Greater values have greater interpolations.** -/
theorem interpolate_le {w : Nat → α} (h : ∀ k, v k ≤ w k) (hx : 0 ≤ x) : interpolate v x ≤ interpolate w x := by
  have hlo : 0 ≤ x - ⌊x⌋₊ := sub_nonneg.mpr (Nat.floor_le hx)
  have hhi : 0 ≤ 1 - (x - ⌊x⌋₊) := by
    have hlt := Nat.lt_floor_add_one x
    linarith
  have hleft := mul_le_mul_of_nonneg_left (h ⌊x⌋₊) hhi
  have hright := mul_le_mul_of_nonneg_left (h (⌊x⌋₊ + 1)) hlo
  unfold interpolate
  linarith

/-- The negative values, read from the other end. -/
theorem interpolate_neg {w : Nat → α} {m : Nat} (h : ∀ k, k ≤ m → w k = -v (m - k)) (hx : 0 ≤ x) (hm : x ≤ m) :
    interpolate w x = -interpolate v (m - x) := by
  by_cases hplace : x = ⌊x⌋₊
  · -- at a place of the sequence
    generalize ⌊x⌋₊ = n at hplace
    subst hplace
    have hn : n ≤ m := Nat.cast_le.mp hm
    rw [← Nat.cast_sub hn, interpolate_natCast, interpolate_natCast, h n hn]
  · -- in the cell after `n`, which is the one after `m - n - 1` from the other end
    obtain ⟨n, hn⟩ : ∃ n, ⌊x⌋₊ = n := ⟨_, rfl⟩
    rw [hn] at hplace
    have hlo : (n : α) < x := lt_of_le_of_ne (hn ▸ Nat.floor_le hx) fun heq => hplace heq.symm
    have hhi : x < n + 1 := hn ▸ Nat.lt_floor_add_one x
    have hlt : n < m := Nat.cast_lt.mp (hlo.trans_le hm)
    have hcast : ((m - n - 1 : Nat) : α) = m - n - 1 := by
      rw [Nat.cast_sub (by omega), Nat.cast_sub hlt.le, Nat.cast_one]
    have hfloor : ⌊(m : α) - x⌋₊ = m - n - 1 := by
      rw [Nat.floor_eq_iff (by linarith), hcast]
      constructor <;> linarith
    unfold interpolate
    rw [hfloor, hn, hcast, h n hlt.le, h (n + 1) hlt, show m - n - 1 + 1 = m - n by omega,
      show m - (n + 1) = m - n - 1 by omega]
    ring

end Interpolation
