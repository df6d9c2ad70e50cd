import Mathlib.Algebra.BigOperators.Fin
import Mathlib.Algebra.BigOperators.Ring.Finset
import Mathlib.Algebra.Order.BigOperators.Group.Finset
import Mathlib.Algebra.Order.Ring.Abs
import Mathlib.Algebra.Order.Ring.Int
import Mathlib.Data.Int.ModEq
import Mathlib.Data.Nat.Bitwise
import Mathlib.Tactic.Linarith
import Mathlib.Tactic.Ring

/-!
# Hashes by xor and multiplication

A word is hashed code by code: `x ↦ (x xor c) · p mod m`.

An xor with `c` moves a number by at most `c`.  So the states of two words of
the same length differ, modulo `m`, by a combination of powers of `p` whose
coefficients, the `offsets`, are as small as the codes.  If `m` divides such a
combination only where all coefficients are 0 (`Independent`), words of that
length have different hashes: `hash_injective`.

`independent_of_certificate` says how that is checked: by as many small vectors
as there are coefficients, on each of which `m` divides the product, so that the
products are 0.
-/

namespace XorMultiply

/-! ## Xor as a small change -/

theorem xor_le_add (x c : Nat) : x ^^^ c ≤ x + c := by
  induction x using Nat.strongRecOn generalizing c with
  | ind x ih =>
    by_cases hx : x = 0
    · rw [hx, Nat.zero_xor, Nat.zero_add]
    · have hhalf := ih (x / 2) (by omega) (c / 2)
      have hdiv : (x ^^^ c) / 2 = x / 2 ^^^ c / 2 := @Nat.xor_div_two_pow x c 1
      have hmod : (x ^^^ c) % 2 = x % 2 ^^^ c % 2 := @Nat.xor_mod_two_pow x c 1
      have hbit : x % 2 ^^^ c % 2 ≤ x % 2 + c % 2 := by
        rcases Nat.mod_two_eq_zero_or_one x with hx | hx <;> rcases Nat.mod_two_eq_zero_or_one c with hc | hc <;>
          rw [hx, hc] <;> decide
      omega

theorem le_xor_add (x c : Nat) : x ≤ (x ^^^ c) + c := by
  have hle := xor_le_add (x ^^^ c) c
  rwa [Nat.xor_assoc, Nat.xor_self, Nat.xor_zero] at hle

/-! ## Words -/

section

variable (p m : Nat)

def mix (x c : Nat) : Nat := (x ^^^ c) * p % m

def hash (x : Nat) (word : List Nat) : Nat := word.foldl (mix p m) x

/-- How much further apart two states are after the xors. -/
def offset (x x' c c' : Nat) : Int := ((x ^^^ c : Nat) - x : Int) - ((x' ^^^ c' : Nat) - x')

def offsets : Nat → Nat → List (Nat × Nat) → List Int
  | _, _, [] => []
  | x, x', (c, c') :: rest => offset x x' c c' :: offsets (mix p m x c) (mix p m x' c') rest

/-- The difference of two states, carried on through these offsets. -/
def carry (d : Int) (os : List Int) : Int := os.foldl (fun d o => (d + o) * p) d

/-- `m` divides no combination with coefficients up to `bound`, other than that of zeros. -/
def Independent (bound : Int) (length : Nat) : Prop :=
  ∀ os : List Int, os.length = length → (∀ o ∈ os, |o| ≤ bound) → (m : Int) ∣ carry p 0 os → ∀ o ∈ os, o = 0

end

variable {p m : Nat}

theorem abs_offset_le (x x' c c' : Nat) : |offset x x' c c'| ≤ c + c' := by
  have h := xor_le_add x c
  have h' := xor_le_add x' c'
  have hback := le_xor_add x c
  have hback' := le_xor_add x' c'
  unfold offset
  rw [abs_le]
  omega

theorem length_offsets (x x' : Nat) (codes : List (Nat × Nat)) : (offsets p m x x' codes).length = codes.length := by
  induction codes generalizing x x' with
  | nil => rfl
  | cons code rest ih => exact congrArg (· + 1) (ih _ _)

theorem abs_offsets_le {bound : Nat} (x x' : Nat) {codes : List (Nat × Nat)}
    (h : ∀ code ∈ codes, code.1 + code.2 ≤ bound) : ∀ o ∈ offsets p m x x' codes, |o| ≤ bound := by
  induction codes generalizing x x' with
  | nil => exact List.forall_mem_nil _
  | cons code rest ih =>
    obtain ⟨c, c'⟩ := code
    rw [List.forall_mem_cons] at h
    have hhead : |offset x x' c c'| ≤ (bound : Int) := by
      have hle := abs_offset_le x x' c c'
      have hcodes : c + c' ≤ bound := h.1
      omega
    exact List.forall_mem_cons.mpr ⟨hhead, ih _ _ h.2⟩

/-- **Step lemma.** -/
theorem mix_modEq (x x' c c' : Nat) :
    (mix p m x c : Int) - mix p m x' c' ≡ ((x - x' : Int) + offset x x' c c') * p [ZMOD m] := by
  have hmod : ∀ n : Nat, ((n % m : Nat) : Int) ≡ n [ZMOD m] := by
    intro n
    rw [Int.natCast_mod]
    exact Int.mod_modEq _ _
  have hsub := (hmod ((x ^^^ c) * p)).sub (hmod ((x' ^^^ c') * p))
  have hvalue : (((x ^^^ c) * p : Nat) : Int) - ((x' ^^^ c') * p : Nat) = ((x - x' : Int) + offset x x' c c') * p := by
    unfold offset
    push_cast
    ring
  rw [hvalue] at hsub
  exact hsub

theorem carry_modEq {d d' : Int} (h : d ≡ d' [ZMOD m]) (os : List Int) : carry p d os ≡ carry p d' os [ZMOD m] := by
  induction os generalizing d d' with
  | nil => exact h
  | cons o os ih => exact ih ((h.add_right o).mul_right p)

/-- **Run lemma.**  The difference of the hashes is the difference carried through the offsets. -/
theorem hash_modEq (x x' : Nat) (codes : List (Nat × Nat)) :
    (hash p m x (codes.map Prod.fst) : Int) - hash p m x' (codes.map Prod.snd) ≡
      carry p (x - x') (offsets p m x x' codes) [ZMOD m] := by
  induction codes generalizing x x' with
  | nil => exact Int.ModEq.refl _
  | cons code rest ih =>
    obtain ⟨c, c'⟩ := code
    exact (ih (mix p m x c) (mix p m x' c')).trans (carry_modEq (mix_modEq x x' c c') _)

/-- From one state, only equal words have no offset. -/
theorem eq_of_offsets {x : Nat} {codes : List (Nat × Nat)} (h : ∀ o ∈ offsets p m x x codes, o = 0) :
    codes.map Prod.fst = codes.map Prod.snd := by
  induction codes generalizing x with
  | nil => rfl
  | cons code rest ih =>
    obtain ⟨c, c'⟩ := code
    have hboth := List.forall_mem_cons.mp h
    have hxor : x ^^^ c = x ^^^ c' := by
      have hzero := hboth.1
      unfold offset at hzero
      omega
    have hcode : c = c' := Nat.xor_right_inj.mp hxor
    subst hcode
    exact congrArg (c :: ·) (ih hboth.2)

/-- **Words of independent length have different hashes.** -/
theorem hash_injective {bound length : Nat} (hindependent : Independent p m (2 * bound : Nat) length) (x : Nat)
    {word word' : List Nat} (hlen : word.length = length) (hlen' : word'.length = length)
    (hword : ∀ c ∈ word, c ≤ bound) (hword' : ∀ c ∈ word', c ≤ bound) (h : hash p m x word = hash p m x word') :
    word = word' := by
  have hfst : (word.zip word').map Prod.fst = word := List.map_fst_zip (hlen.trans hlen'.symm).le
  have hsnd : (word.zip word').map Prod.snd = word' := List.map_snd_zip (hlen'.trans hlen.symm).le
  have hcodes : ∀ code ∈ word.zip word', code.1 + code.2 ≤ 2 * bound := by
    intro code hcode
    have hc := hword code.1 (List.of_mem_zip hcode).1
    have hc' := hword' code.2 (List.of_mem_zip hcode).2
    omega
  have hlength : (offsets p m x x (word.zip word')).length = length := by
    rw [length_offsets, List.length_zip, hlen, hlen', Nat.min_self]
  have hcarry := hash_modEq (p := p) (m := m) x x (word.zip word')
  rw [hfst, hsnd, h, sub_self, sub_self] at hcarry
  have hzero := hindependent _ hlength (abs_offsets_le x x hcodes) (Int.modEq_zero_iff_dvd.mp hcarry.symm)
  have heq := eq_of_offsets hzero
  rwa [hfst, hsnd] at heq

/-! ## Certificates -/

open Finset

theorem carry_ofFn {n : Nat} (d : Int) (o : Fin n → Int) :
    carry p d (List.ofFn o) = d * (p : Int) ^ n + ∑ i, o i * (p : Int) ^ (n - i.val) := by
  induction n generalizing d with
  | zero => simp [carry]
  | succ n ih =>
    have hstep : carry p d (List.ofFn o) = carry p ((d + o 0) * p) (List.ofFn fun i => o i.succ) := by
      rw [List.ofFn_succ]
      rfl
    have htail : ∑ i : Fin n, o i.succ * (p : Int) ^ (n + 1 - i.succ.val) =
        ∑ i : Fin n, o i.succ * (p : Int) ^ (n - i.val) := by
      refine sum_congr rfl fun i _ => ?_
      rw [Fin.val_succ, Nat.add_sub_add_right]
    rw [hstep, ih, Fin.sum_univ_succ, htail, Fin.val_zero, Nat.sub_zero, pow_succ]
    ring

/-- `relation` multiplies each power of `p` by a factor, modulo `m`; its rows
are small, and `inverse` is its inverse times `m`. -/
structure Certificate (p m : Nat) (bound : Int) {n : Nat} (factor : Fin n → Int) (relation inverse : Fin n → Fin n → Int) :
    Prop where
  multiple : ∀ j i, (m : Int) ∣ factor j * (p : Int) ^ (n - i.val) - relation j i
  small : ∀ j, (∑ i, |relation j i|) * bound < m
  inverts : ∀ i k, ∑ j, inverse i j * relation j k = if i = k then (m : Int) else 0

theorem independent_of_certificate {bound : Int} {n : Nat} {factor : Fin n → Int} {relation inverse : Fin n → Fin n → Int}
    (h : Certificate p m bound factor relation inverse) (hm : 0 < m) : Independent p m bound n := by
  intro os hlen hbound hdvd
  obtain rfl : n = os.length := hlen.symm
  -- the coefficients as a vector
  have hos : List.ofFn os.get = os := List.ofFn_get os
  have hvector : (m : Int) ∣ ∑ i, os.get i * (p : Int) ^ (os.length - i.val) := by
    rw [← hos, carry_ofFn, zero_mul, zero_add] at hdvd
    simpa using hdvd
  have hproduct : ∀ j, ∑ i, relation j i * os.get i = 0 := by
    intro j
    refine Int.eq_zero_of_abs_lt_dvd (m := m) ?_ ?_
    · have hmultiple : (m : Int) ∣ ∑ i, (factor j * (p : Int) ^ (os.length - i.val) - relation j i) * os.get i :=
        dvd_sum fun i _ => Dvd.dvd.mul_right (h.multiple j i) _
      have hsplit : ∑ i, relation j i * os.get i = factor j * ∑ i, os.get i * (p : Int) ^ (os.length - i.val) -
          ∑ i, (factor j * (p : Int) ^ (os.length - i.val) - relation j i) * os.get i := by
        rw [mul_sum, ← sum_sub_distrib]
        refine sum_congr rfl fun i _ => ?_
        ring
      rw [hsplit]
      exact dvd_sub (Dvd.dvd.mul_left hvector _) hmultiple
    · refine lt_of_le_of_lt ?_ (h.small j)
      rw [sum_mul]
      refine (abs_sum_le_sum_abs _ _).trans (sum_le_sum fun i _ => ?_)
      rw [abs_mul]
      exact mul_le_mul_of_nonneg_left (hbound _ (List.get_mem os i)) (abs_nonneg _)
  have hzero : ∀ i, os.get i = 0 := by
    intro i
    have hscaled : (m : Int) * os.get i = ∑ j, inverse i j * ∑ k, relation j k * os.get k := by
      calc (m : Int) * os.get i = ∑ k, (if i = k then (m : Int) else 0) * os.get k := by simp
        _ = ∑ k, (∑ j, inverse i j * relation j k) * os.get k := by simp only [h.inverts]
        _ = ∑ j, inverse i j * ∑ k, relation j k * os.get k := by
            simp only [sum_mul, mul_sum, mul_assoc]
            exact sum_comm
    simp only [hproduct, mul_zero, sum_const_zero] at hscaled
    exact (mul_eq_zero.mp hscaled).resolve_left (by omega)
  intro o ho
  obtain ⟨i, rfl⟩ := List.get_of_mem ho
  exact hzero i

end XorMultiply
