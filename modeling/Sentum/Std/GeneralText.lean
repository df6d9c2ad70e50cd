import Sentum.Lib.BinaryFloat
import Sentum.Std.GeneralFormat

/-!
# Numbers written with 17 digits

`general` rounds a number to the precision, and its text is a numeral that
denotes the rounded number (`general_denotes`).  With 17 significant digits that
is closer to the number of 53 bits that was written than to any other of these
(`general_nearest`).
-/

namespace Sentum.Std

open BinaryFloat

/-! ## Texts with an exponent -/

/-- `mantissa · 10^exponent` -/
theorem scale_eq_zpow (m : Nat) (x : Int) : scale m x = m * 10 ^ x := by
  unfold scale
  split
  · next h =>
    conv_rhs => rw [← Int.toNat_of_nonneg h, zpow_natCast]
  · next h =>
    have hneg : x = -((-x).toNat : Int) := by omega
    conv_rhs => rw [hneg, zpow_neg, zpow_natCast]
    rw [div_eq_mul_inv]

/-- `e`, a sign and digits. -/
def exponentText (negative : Bool) (ds : List Char) : List Char := 'e' :: (if negative then '-' else '+') :: ds

theorem takeExponent_text (negative : Bool) {ds : List Char} (h : ∀ c ∈ ds, isDigit c = true) :
    takeExponent (exponentText negative ds) = if negative then -(digitsVal ds : Int) else digitsVal ds := by
  have hall : ds.takeWhile isDigit = ds := List.takeWhile_eq_self_iff.mpr h
  cases negative <;> simp [takeExponent, exponentText, takeSign, hall]

theorem noDigit_exponentText (negative : Bool) (ds : List Char) : NoDigit (exponentText negative ds) := by
  intro c hc
  cases hc
  rfl

namespace Decimal

variable (d : Decimal)

theorem takeSign_append (tail : List Char) : takeSign (d.text ++ tail) = (d.negative, d.unsigned ++ tail) := by
  obtain ⟨c, cs, hcs, hc⟩ := d.unsigned_head
  unfold text
  split
  · next hn =>
    rw [hn]
    rfl
  · next hn =>
    rw [Bool.eq_false_of_not_eq_true hn, hcs, List.cons_append]
    unfold takeSign
    split
    · next heq => exact absurd hc (by rw [(List.cons.inj heq).1]; decide)
    · next heq => exact absurd hc (by rw [(List.cons.inj heq).1]; decide)
    · rfl

theorem dropWhile_append (tail : List Char) : (d.text ++ tail).dropWhile isSpace = d.text ++ tail := by
  obtain ⟨c, cs, hcs, -⟩ := d.text_head
  have hfirst : isSpace c = false := by
    have hkept := d.dropWhile_text
    rw [hcs] at hkept
    by_contra hspace
    rw [List.dropWhile_cons_of_pos (Bool.not_eq_false _ ▸ hspace)] at hkept
    have hshort := (List.dropWhile_sublist isSpace (l := cs)).length_le
    rw [hkept, List.length_cons] at hshort
    omega
  rw [hcs, List.cons_append, List.dropWhile_cons_of_neg (by simp [hfirst])]

theorem takeFraction_append (negative : Bool) (ds : List Char) :
    takeFraction (d.point ++ exponentText negative ds) = (d.fraction.getD [], exponentText negative ds) := by
  have hdigits := d.fraction_digits
  unfold point
  cases hf : d.fraction with
  | none => rfl
  | some fs =>
    rw [hf] at hdigits
    exact span_digits hdigits (noDigit_exponentText negative ds)

/-- A decimal with an exponent behind it. -/
theorem stod_text_exponent (negative : Bool) {ds : List Char} (h : ∀ c ∈ ds, isDigit c = true) :
    stod (String.ofList (d.text ++ exponentText negative ds)) =
      some (d.value * 10 ^ (if negative then -(digitsVal ds : Int) else digitsVal ds)) := by
  have hspan : (d.unsigned ++ exponentText negative ds).span isDigit =
      (d.whole, d.point ++ exponentText negative ds) := by
    rw [show d.unsigned = d.whole ++ d.point from rfl, List.append_assoc]
    exact span_digits d.whole_digits (d.noDigit_point (noDigit_exponentText negative ds))
  have hne : (d.whole.isEmpty && (d.fraction.getD []).isEmpty) = false := by
    rcases d.some_digit with h | h
    · simp [h]
    · simp [h]
  unfold stod
  rw [String.toList_ofList, dropWhile_append, takeSign_append]
  dsimp only
  rw [hspan]
  dsimp only
  rw [takeFraction_append]
  dsimp only
  rw [hne, if_neg Bool.false_ne_true, takeExponent_text negative h, scale_eq_zpow,
    zpow_sub₀ (by norm_num : (10 : ℚ) ≠ 0), zpow_natCast]
  unfold value magnitude
  cases d.negative with
  | true =>
    rw [if_pos rfl, if_pos rfl]
    congr 1
    ring
  | false =>
    rw [if_neg Bool.false_ne_true, if_neg Bool.false_ne_true]
    congr 1
    ring

/-- The decimal that `withFraction` writes, with a minus in front or not. -/
def ofParts (negative : Bool) (whole fraction : List Char) (hne : whole ≠ []) (hw : ∀ c ∈ whole, isDigit c = true)
    (hf : ∀ c ∈ fraction, isDigit c = true) : Decimal where
  negative
  whole
  fraction := if fraction.rdropWhile (· == '0') = [] then none else some (fraction.rdropWhile (· == '0'))
  whole_digits := hw
  fraction_digits := by
    intro c hc
    split at hc
    · exact absurd hc List.not_mem_nil
    · exact hf c ((List.rdropWhile_prefix _ fraction).subset hc)
  some_digit := .inl hne

section
variable {negative : Bool} {whole fraction : List Char} {hne : whole ≠ []} {hw : ∀ c ∈ whole, isDigit c = true}
  {hf : ∀ c ∈ fraction, isDigit c = true}

theorem ofParts_unsigned : (ofParts negative whole fraction hne hw hf).unsigned = withFraction whole fraction := by
  unfold ofParts unsigned point withFraction
  dsimp only
  cases fraction.rdropWhile (· == '0') with
  | nil => exact List.append_nil whole
  | cons c cs => rfl

/-- The zeros that are left out do not count. -/
theorem ofParts_magnitude : (ofParts negative whole fraction hne hw hf).magnitude =
    digitsVal (whole ++ fraction) / 10 ^ fraction.length := by
  obtain ⟨k, hk⟩ := fraction_split fraction
  have hkept : (ofParts negative whole fraction hne hw hf).fraction.getD [] = fraction.rdropWhile (· == '0') := by
    unfold ofParts
    dsimp only
    split
    · next h => exact h.symm
    · rfl
  have hdigits : digitsVal (whole ++ fraction) = digitsVal (whole ++ fraction.rdropWhile (· == '0')) * 10 ^ k := by
    conv_lhs => rw [hk, ← List.append_assoc, digitsVal_append, digitsVal_replicate_zero, List.length_replicate]
    rfl
  have hlength : fraction.length = (fraction.rdropWhile (· == '0')).length + k := by
    conv_lhs => rw [hk, List.length_append, List.length_replicate]
  unfold magnitude
  rw [hkept, hdigits, hlength, pow_add]
  show (digitsVal (whole ++ fraction.rdropWhile (· == '0')) : ℚ) / _ = _
  push_cast
  field_simp

end

end Decimal

/-- The text is a decimal, with an exponent or without, and nothing else; `v` is its value. -/
def Denotes (text : List Char) (v : ℚ) : Prop :=
  ∃ d : Decimal, text = d.text ∧ d.value = v ∨
    ∃ negative ds, ds ≠ [] ∧ (∀ c ∈ ds, isDigit c = true) ∧ text = d.text ++ exponentText negative ds ∧
      d.value * 10 ^ (if negative then -(digitsVal ds : Int) else digitsVal ds) = v

theorem Denotes.stod {text : List Char} {v : ℚ} (h : Denotes text v) : stod (String.ofList text) = some v := by
  obtain ⟨d, ⟨rfl, rfl⟩ | ⟨negative, ds, -, hds, rfl, rfl⟩⟩ := h
  · exact d.stod_text
  · exact d.stod_text_exponent negative hds

/-! ## The rounded number -/

theorem abs_roundHalfEven_sub_le (q : ℚ) : |(roundHalfEven q : ℚ) - q| ≤ 1 / 2 := by
  have hlo := Int.floor_le q
  have hhi := Int.lt_floor_add_one q
  unfold roundHalfEven
  dsimp only
  rw [abs_le]
  split
  · constructor <;> linarith
  · split
    · push_cast
      constructor <;> linarith
    · split
      · constructor <;> linarith
      · push_cast
        constructor <;> linarith

namespace Scientific

/-- The number that is written with `k + 1` digits. -/
def value (k : Nat) (s : Scientific) : ℚ := s.significand * 10 ^ (s.exponent - k)

end Scientific

/-- Rounding to `k + 1` digits: it has as many, and is off by half a unit of the last one at most. -/
theorem scientific_rounds {k : Nat} {q : ℚ} (hq : 0 < q) :
    10 ^ k ≤ (scientific (k + 1) q).significand ∧ (scientific (k + 1) q).significand < 10 ^ (k + 1) ∧
      |(scientific (k + 1) q).value k - q| ≤ 1 / 2 * 10 ^ (Int.log 10 q - k) := by
  have h10 : (10 : ℚ) ≠ 0 := by norm_num
  have hlo : (10 : ℚ) ^ Int.log 10 q ≤ q := Int.zpow_log_le_self (by decide) hq
  have hhi : q < (10 : ℚ) ^ (Int.log 10 q + 1) := Int.lt_zpow_succ_log_self (by decide) q
  have hpos : (0 : ℚ) < 10 ^ (Int.log 10 q - k) := zpow_pos (by norm_num) _
  have hunit : q = q / 10 ^ (Int.log 10 q - k) * 10 ^ (Int.log 10 q - k) := (div_mul_cancel₀ q hpos.ne').symm
  have htlo : ((10 ^ k : Int) : ℚ) ≤ q / 10 ^ (Int.log 10 q - k) := by
    rw [le_div_iff₀ hpos]
    push_cast
    rw [← zpow_natCast, ← zpow_add₀ h10]
    simpa using hlo
  have hthi : q / 10 ^ (Int.log 10 q - k) < ((10 ^ (k + 1) : Int) : ℚ) := by
    have hsum : ((k + 1 : Nat) : Int) + (Int.log 10 q - k) = Int.log 10 q + 1 := by push_cast; ring
    rw [div_lt_iff₀ hpos]
    push_cast
    rw [← zpow_natCast, ← zpow_add₀ h10, hsum]
    exact hhi
  have hround := abs_le.mp (abs_roundHalfEven_sub_le (q / 10 ^ (Int.log 10 q - k)))
  have hexp : Int.log 10 q - ((k + 1 : Nat) : Int) + 1 = Int.log 10 q - k := by
    push_cast
    ring
  unfold scientific Scientific.value
  dsimp only
  rw [hexp]
  generalize hr : roundHalfEven (q / 10 ^ (Int.log 10 q - k)) = r at hround
  generalize hu : (10 : ℚ) ^ (Int.log 10 q - k) = u at hpos hunit htlo hthi hround ⊢
  -- the rounded significand lies between two powers of ten
  have hrlo : 10 ^ k ≤ r := by
    have : ((10 ^ k - 1 : Int) : ℚ) < r := by push_cast at htlo ⊢; linarith
    have := Int.cast_lt.mp this
    omega
  have hrhi : r ≤ 10 ^ (k + 1) := by
    have : (r : ℚ) < ((10 ^ (k + 1) + 1 : Int) : ℚ) := by push_cast at hthi ⊢; linarith
    have := Int.cast_lt.mp this
    omega
  obtain ⟨n, rfl⟩ := Int.eq_ofNat_of_zero_le ((by positivity : (0 : Int) ≤ 10 ^ k).trans hrlo)
  have hnlo : 10 ^ k ≤ n := by exact_mod_cast hrlo
  have hnhi : n ≤ 10 ^ (k + 1) := by exact_mod_cast hrhi
  have herror : |(n : ℚ) * u - q| ≤ 1 / 2 * u := by
    conv_lhs => rw [hunit, ← sub_mul, abs_mul, abs_of_pos hpos]
    refine mul_le_mul_of_nonneg_right (abs_le.mpr ?_) hpos.le
    simpa using hround
  rw [Int.toNat_natCast]
  split
  · next hfull =>
    refine ⟨le_rfl, Nat.pow_lt_pow_right (by decide) (Nat.lt_succ_self k), ?_⟩
    have hcarry : ((10 ^ k : Nat) : ℚ) * 10 ^ (Int.log 10 q + 1 - k) = n * u := by
      have hsucc : Int.log 10 q + 1 - k = Int.log 10 q - k + 1 := by ring
      rw [hfull, hsucc, zpow_add_one₀ h10, hu]
      push_cast
      ring
    rw [Nat.add_sub_cancel, hcarry]
    exact herror
  · next hfull =>
    refine ⟨hnlo, lt_of_le_of_ne hnhi hfull, ?_⟩
    rw [hu]
    exact herror

/-! ## The text of the rounded number -/

namespace Scientific

theorem exponentDigits_digits {n : Nat} : ∀ c ∈ exponentDigits n, isDigit c = true := by
  intro c hc
  unfold exponentDigits at hc
  split at hc
  · rcases List.mem_cons.mp hc with rfl | hc
    · decide
    · exact isDigit_of_mem_toDigits hc
  · exact isDigit_of_mem_toDigits hc

theorem exponentDigits_ne_nil (n : Nat) : exponentDigits n ≠ [] := by
  unfold exponentDigits
  split
  · exact List.cons_ne_nil _ _
  · exact Nat.toDigits_ne_nil

theorem digitsVal_exponentDigits (n : Nat) : digitsVal (exponentDigits n) = n := by
  unfold exponentDigits
  split
  · rw [digitsVal_cons, digitsVal_toDigits]
    show 0 * _ + n = n
    omega
  · exact digitsVal_toDigits n

theorem scientificText_eq (s : Scientific) : s.scientificText =
    withFraction ((Nat.toDigits 10 s.significand).take 1) ((Nat.toDigits 10 s.significand).drop 1) ++
      exponentText (decide (s.exponent < 0)) (exponentDigits s.exponent.natAbs) := by
  unfold scientificText exponentText
  by_cases h : s.exponent < 0 <;> simp [h]

/-- The text of a number, with a sign in front or not, denotes the rounded number. -/
theorem generalText_denotes {k : Nat} {s : Scientific} (hlo : 10 ^ k ≤ s.significand)
    (hhi : s.significand < 10 ^ (k + 1)) (negative : Bool) :
    Denotes (if negative then '-' :: s.generalText (k + 1) else s.generalText (k + 1))
      (if negative then -s.value k else s.value k) := by
  have h10 : (10 : ℚ) ≠ 0 := by norm_num
  by_cases hx : -4 ≤ s.exponent ∧ s.exponent < (k + 1 : Nat)
  · have hgeneral : s.generalText (k + 1) = s.fixedText := if_pos hx
    obtain ⟨hwhole, hfraction⟩ := split_length hlo hhi (by omega)
    have hw : ∀ c ∈ s.split.1, isDigit c = true := fun c hc => split_digits c (List.mem_append_left _ hc)
    have hf : ∀ c ∈ s.split.2, isDigit c = true := fun c hc => split_digits c (List.mem_append_right _ hc)
    have hne : s.split.1 ≠ [] := List.ne_nil_of_length_pos (by omega)
    let d := Decimal.ofParts negative s.split.1 s.split.2 hne hw hf
    have hmagnitude : d.magnitude = s.value k := by
      have hexp : s.exponent - k = -(s.split.2.length : Int) := by omega
      rw [Decimal.ofParts_magnitude, split_value, value, hexp, zpow_neg, zpow_natCast, div_eq_mul_inv]
    refine ⟨d, .inl ⟨?_, ?_⟩⟩
    · rw [hgeneral, Decimal.text, Decimal.ofParts_unsigned]
      rfl
    · rw [Decimal.value, hmagnitude]
      rfl
  · have hgeneral : s.generalText (k + 1) = s.scientificText := if_neg hx
    have hlen := length_toDigits hlo hhi
    have hw : ∀ c ∈ (Nat.toDigits 10 s.significand).take 1, isDigit c = true :=
      fun c hc => isDigit_of_mem_toDigits (List.mem_of_mem_take hc)
    have hf : ∀ c ∈ (Nat.toDigits 10 s.significand).drop 1, isDigit c = true :=
      fun c hc => isDigit_of_mem_toDigits (List.mem_of_mem_drop hc)
    have hne : (Nat.toDigits 10 s.significand).take 1 ≠ [] :=
      List.ne_nil_of_length_pos (by rw [List.length_take, hlen]; omega)
    let d := Decimal.ofParts negative _ _ hne hw hf
    have hmagnitude : d.magnitude = s.significand / 10 ^ k := by
      rw [Decimal.ofParts_magnitude, List.take_append_drop, digitsVal_toDigits, List.length_drop, hlen,
        Nat.add_sub_cancel]
    have hexp : (if decide (s.exponent < 0) = true then -(s.exponent.natAbs : Int) else s.exponent.natAbs) =
        s.exponent := by
      by_cases h : s.exponent < 0
      · rw [if_pos (decide_eq_true h)]
        omega
      · rw [if_neg (by simpa using h)]
        omega
    have hscaled : d.magnitude * 10 ^ s.exponent = s.value k := by
      rw [hmagnitude, value, zpow_sub₀ h10, zpow_natCast]
      ring
    refine ⟨d, .inr ⟨decide (s.exponent < 0), exponentDigits s.exponent.natAbs, exponentDigits_ne_nil _,
      exponentDigits_digits, ?_, ?_⟩⟩
    · rw [hgeneral, scientificText_eq, Decimal.text, Decimal.ofParts_unsigned]
      cases negative <;> rfl
    · rw [digitsVal_exponentDigits, hexp, ← hscaled, Decimal.value]
      cases negative with
      | true => exact neg_mul _ _
      | false => rfl

end Scientific

/-- **What is written** for a number: the number rounded to as many digits. -/
theorem general_denotes (k : Nat) {q : ℚ} (hq : q ≠ 0) :
    ∃ v, Denotes (general (k + 1) q).toList v ∧ |v - q| ≤ 1 / 2 * 10 ^ (Int.log 10 |q| - k) := by
  unfold general
  rw [if_neg hq, String.toList_ofList]
  by_cases hneg : q < 0
  · obtain ⟨hlo, hhi, herror⟩ := scientific_rounds (k := k) (neg_pos.mpr hneg)
    have hflip : -(scientific (k + 1) (-q)).value k - q = -((scientific (k + 1) (-q)).value k - -q) := by ring
    refine ⟨-(scientific (k + 1) (-q)).value k, ?_, ?_⟩
    · rw [if_pos hneg]
      exact Scientific.generalText_denotes hlo hhi true
    · rw [hflip, abs_neg, abs_of_neg hneg]
      exact herror
  · have hpos : 0 < q := lt_of_le_of_ne (not_lt.mp hneg) hq.symm
    obtain ⟨hlo, hhi, herror⟩ := scientific_rounds (k := k) hpos
    refine ⟨(scientific (k + 1) q).value k, ?_, ?_⟩
    · rw [if_neg hneg]
      exact Scientific.generalText_denotes hlo hhi false
    · rw [abs_of_pos hpos]
      exact herror

/-- Zero is written as a digit. -/
theorem general_zero_denotes (precision : Nat) : Denotes (general precision 0).toList 0 := by
  refine ⟨Decimal.ofInt 0, .inl ⟨?_, by decide +kernel⟩⟩
  rw [general, if_pos rfl, String.toList_ofList]
  decide

/-- **17 significant digits are enough**: what is written for a number of 53
bits is closer to it than to any other. -/
theorem general_nearest {q : ℚ} (h : IsFloat 53 q) :
    ∃ v, Denotes (general 17 q).toList v ∧ (v = 0 ↔ q = 0) ∧ ∀ y, IsFloat 53 y → y ≠ q → |v - q| < |v - y| := by
  by_cases hq : q = 0
  · subst hq
    exact ⟨0, general_zero_denotes 17, Iff.rfl, fun y _ hy => by simpa using hy⟩
  · obtain ⟨v, hv, herror⟩ := general_denotes 16 hq
    have hlo : (10 : ℚ) ^ Int.log 10 |q| ≤ |q| := Int.zpow_log_le_self (by decide) (abs_pos.mpr hq)
    have hpos : (0 : ℚ) < 10 ^ (Int.log 10 |q| - 16) := zpow_pos (by norm_num) _
    have hsplit : (10 : ℚ) ^ Int.log 10 |q| = 10 ^ 16 * 10 ^ (Int.log 10 |q| - 16) := by
      rw [← zpow_natCast, ← zpow_add₀ (by norm_num : (10 : ℚ) ≠ 0)]
      congr 1
      push_cast
      ring
    -- half a unit of the last digit, against the spacing of the numbers
    have hclose : 2 ^ (53 + 1) * |v - q| < |q| :=
      calc 2 ^ (53 + 1) * |v - q| ≤ 2 ^ (53 + 1) * (1 / 2 * 10 ^ (Int.log 10 |q| - 16)) :=
            mul_le_mul_of_nonneg_left herror (by positivity)
        _ = 2 ^ 53 * 10 ^ (Int.log 10 |q| - 16) := by ring
        _ < 10 ^ 16 * 10 ^ (Int.log 10 |q| - 16) := mul_lt_mul_of_pos_right (by norm_num) hpos
        _ ≤ |q| := hsplit ▸ hlo
    refine ⟨v, hv, iff_of_false (fun hzero => ?_) hq, fun y hy hne => nearest h (.inr hclose) hy hne⟩
    rw [hzero, zero_sub, abs_neg] at hclose
    have hsmall : |q| ≤ 2 ^ (53 + 1) * |q| := le_mul_of_one_le_left (abs_nonneg q) (by norm_num)
    exact absurd hclose (not_lt.mpr hsmall)

end Sentum.Std
