import Mathlib.Algebra.Order.Field.Basic
import Mathlib.Algebra.Order.Field.Power
import Mathlib.Algebra.Order.Ring.Rat
import Mathlib.Tactic.Linarith
import Mathlib.Tactic.Ring

/-!
# How far apart binary floating-point numbers are

`IsFloat p x`: `x` is an integer of less than `p` bits times a power of two, of
whatever exponent.  Two such numbers differ by at least the `2^p`-th part of
either (`spacing`), so that whatever is closer to one of them than half of that
is closer to it than to any other (`nearest`).
-/

namespace BinaryFloat

def IsFloat (p : Nat) (x : ℚ) : Prop := ∃ m e : ℤ, |m| < 2 ^ p ∧ x = m * 2 ^ e

theorem isFloat_zero (p : Nat) : IsFloat p 0 := ⟨0, 0, by positivity, by simp⟩

theorem isFloat_natCast {p n : Nat} (h : n < 2 ^ p) : IsFloat p n :=
  ⟨n, 0, by rw [Nat.abs_cast]; exact_mod_cast h, by simp⟩

variable {p : Nat} {x y : ℚ}

/-- Integers one of which has less than `p` bits. -/
theorem integer_spacing {a b : ℤ} (h : |a| < 2 ^ p ∨ |b| < 2 ^ p) (hne : a ≠ b) : |a| ≤ 2 ^ p * |a - b| := by
  have hone : 1 ≤ |a - b| := Int.one_le_abs (sub_ne_zero.mpr hne)
  have hpow : (1 : ℤ) ≤ 2 ^ p := one_le_pow₀ (by decide)
  rcases h with ha | hb
  · nlinarith
  · have htriangle : |a| ≤ |a - b| + |b| := by
      have := abs_add_le (a - b) b
      rwa [sub_add_cancel] at this
    -- `|b| ≤ 2^p - 1 ≤ (2^p - 1) * |a - b|`
    nlinarith

/-- **Spacing.** -/
theorem spacing (hx : IsFloat p x) (hy : IsFloat p y) (hne : x ≠ y) : |x| ≤ 2 ^ p * |x - y| := by
  obtain ⟨m, e, hm, rfl⟩ := hx
  obtain ⟨n, f, hn, rfl⟩ := hy
  -- both are integers times the smaller of the two powers
  have hscaled : ∀ (g : ℤ) (a b : ℤ), (|a| < 2 ^ p ∨ |b| < 2 ^ p) → (m : ℚ) * 2 ^ e = a * 2 ^ g →
      (n : ℚ) * 2 ^ f = b * 2 ^ g → |(m : ℚ) * 2 ^ e| ≤ 2 ^ p * |(m : ℚ) * 2 ^ e - n * 2 ^ f| := by
    intro g a b hbits ha hb
    have hab : a ≠ b := fun heq => hne (by rw [ha, hb, heq])
    have hint : (|a| : ℚ) ≤ 2 ^ p * |(a : ℚ) - b| := by exact_mod_cast integer_spacing hbits hab
    have hpos : (0 : ℚ) < 2 ^ g := zpow_pos (by norm_num) g
    rw [ha, hb, ← sub_mul, abs_mul, abs_mul, abs_of_pos hpos, ← mul_assoc]
    exact mul_le_mul_of_nonneg_right hint hpos.le
  have hsplit : ∀ {lo hi : ℤ}, lo ≤ hi → (2 : ℚ) ^ hi = 2 ^ (hi - lo).toNat * 2 ^ lo := by
    intro lo hi hle
    rw [← zpow_natCast, ← zpow_add₀ (by norm_num : (2 : ℚ) ≠ 0), Int.toNat_of_nonneg (by omega)]
    congr 1
    omega
  rcases le_total e f with hle | hle
  · exact hscaled e m (n * 2 ^ (f - e).toNat) (.inl hm) rfl (by rw [hsplit hle]; push_cast; ring)
  · exact hscaled f (m * 2 ^ (e - f).toNat) n (.inr hn) (by rw [hsplit hle]; push_cast; ring) rfl

/-- **The nearest float**: what is so close to `x` is closer to it than to any other. -/
theorem nearest {v : ℚ} (hx : IsFloat p x) (hclose : v = x ∨ 2 ^ (p + 1) * |v - x| < |x|) (hy : IsFloat p y)
    (hne : y ≠ x) : |v - x| < |v - y| := by
  rcases hclose with rfl | hclose
  · rw [sub_self, abs_zero]
    exact abs_pos.mpr (sub_ne_zero.mpr hne.symm)
  · have hgap := spacing hx hy hne.symm
    have htriangle : |x - y| ≤ |v - x| + |v - y| := by
      rw [abs_sub_comm v x]
      exact abs_sub_le x v y
    have hpow : (0 : ℚ) < 2 ^ p := by positivity
    rw [pow_succ, mul_assoc] at hclose
    have hhalf : 2 * |v - x| < |x - y| := lt_of_mul_lt_mul_left (hclose.trans_le hgap) hpow.le
    linarith

end BinaryFloat
