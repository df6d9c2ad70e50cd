import Mathlib.Data.Nat.ModEq

/-!
# Positions on a ring

An unbounded position `k` lies in slot `k % n` of a ring of `n` slots.  Over
one lap, the positions `m, …, m + n - 1`, no slot belongs to two positions.
-/

namespace RingIndex

variable {n k l m : Nat}

theorem succ_mod : (k % n + 1) % n = (k + 1) % n := by
  rw [Nat.mod_add_mod]

/-- Positions of one lap that share their slot are equal. -/
theorem eq_of_mod_eq (hk : m ≤ k) (hk' : k < m + n) (hl : m ≤ l) (hl' : l < m + n)
    (h : k % n = l % n) : k = l := by
  have hmod : k ≡ l [MOD n] := h
  rcases Nat.le_total k l with hkl | hkl
  · have := (Nat.modEq_iff_dvd' hkl).mp hmod
    have := Nat.eq_zero_of_dvd_of_lt this (by omega)
    omega
  · have := (Nat.modEq_iff_dvd' hkl).mp hmod.symm
    have := Nat.eq_zero_of_dvd_of_lt this (by omega)
    omega

/-- Going back `c ≤ n` slots from that of position `k` is the slot of
position `k - c`; `k + n - c` is how unsigned arithmetic writes it. -/
theorem back_mod {c : Nat} (hc : c ≤ n) (hk : c ≤ k) : (k % n + n - c) % n = (k - c) % n := by
  have hdiv := Nat.div_add_mod k n
  have hlhs : k % n + n - c + n * (k / n) = k - c + n := by omega
  rw [← Nat.add_mul_mod_self_left (k % n + n - c) n (k / n), hlhs, Nat.add_mod_right]

end RingIndex
