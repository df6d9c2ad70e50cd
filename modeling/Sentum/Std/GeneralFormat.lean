import Mathlib.Data.Int.Log
import Mathlib.Data.List.DropRight
import Mathlib.Data.Nat.Digits.Defs
import Mathlib.Data.Rat.Floor
import Mathlib.Tactic.Linarith
import Mathlib.Tactic.NormNum
import Sentum.Std.Decimal

/-!
# Numbers in general format

What an output stream with neither `std::fixed` nor `std::scientific` writes
for a number: `%.{precision}g` of the C library.  The number is rounded to
`precision` significant digits; with a decimal exponent from -4 to below the
precision it is written in full, else in scientific notation, and trailing
zeros of the fraction are left out in both.

`general_eq_fixed` and `general_eq_scientific` are the two cases for a number
of no more digits than that.
-/

namespace Sentum.Std

/-- To the nearest integer, ties to the even one. -/
def roundHalfEven (q : ℚ) : Int :=
  let rest := q - ⌊q⌋
  if rest < 1 / 2 then ⌊q⌋
  else if 1 / 2 < rest then ⌊q⌋ + 1
  else if ⌊q⌋ % 2 = 0 then ⌊q⌋ else ⌊q⌋ + 1

theorem roundHalfEven_natCast (n : Nat) : roundHalfEven n = n := by
  simp [roundHalfEven]

/-- `significand · 10^(exponent - precision + 1)` -/
structure Scientific where
  significand : Nat
  exponent : Int
deriving DecidableEq

/-- A positive number, rounded to `precision` digits. -/
def scientific (precision : Nat) (q : ℚ) : Scientific :=
  let exponent := Int.log 10 q
  let significand := (roundHalfEven (q / 10 ^ (exponent - precision + 1))).toNat
  if significand = 10 ^ precision then ⟨10 ^ (precision - 1), exponent + 1⟩ else ⟨significand, exponent⟩

/-- The trailing zeros of the fraction are left out, and the point with the last digit. -/
def withFraction (whole fraction : List Char) : List Char :=
  match fraction.rdropWhile (· == '0') with
  | [] => whole
  | c :: cs => whole ++ '.' :: c :: cs

namespace Scientific

/-- Style `f`: the digits before the point, and those after it. -/
def split (s : Scientific) : List Char × List Char :=
  let digits := Nat.toDigits 10 s.significand
  if 0 ≤ s.exponent then digits.splitAt (s.exponent.toNat + 1)
  else (['0'], List.replicate (-s.exponent - 1).toNat '0' ++ digits)

def fixedText (s : Scientific) : List Char := withFraction s.split.1 s.split.2

/-- At least two digits. -/
def exponentDigits (n : Nat) : List Char := if n < 10 then '0' :: Nat.toDigits 10 n else Nat.toDigits 10 n

/-- Style `e`. -/
def scientificText (s : Scientific) : List Char :=
  let digits := Nat.toDigits 10 s.significand
  withFraction (digits.take 1) (digits.drop 1) ++
    'e' :: (if s.exponent < 0 then '-' else '+') :: exponentDigits s.exponent.natAbs

def generalText (precision : Nat) (s : Scientific) : List Char :=
  if -4 ≤ s.exponent ∧ s.exponent < precision then s.fixedText else s.scientificText

end Scientific

def general (precision : Nat) (q : ℚ) : String :=
  String.ofList
    (if q = 0 then ['0']
    else if q < 0 then '-' :: (scientific precision (-q)).generalText precision
    else (scientific precision q).generalText precision)

example : general 16 (1 / 100000) = "1e-05" := by decide +kernel

example : general 16 (5 / 10000) = "0.0005" := by decide +kernel

/-! ## Digits -/

theorem digitsVal_lt {ds : List Char} (h : ∀ c ∈ ds, isDigit c = true) : digitsVal ds < 10 ^ ds.length := by
  induction ds with
  | nil => decide
  | cons c ds ih =>
    have hc := h c List.mem_cons_self
    unfold isDigit at hc
    rw [Bool.and_eq_true, decide_eq_true_iff, decide_eq_true_iff] at hc
    have hrest := ih fun c' hc' => h c' (List.mem_cons_of_mem c hc')
    have hdigit : (c.toNat - 48) * 10 ^ ds.length ≤ 9 * 10 ^ ds.length :=
      Nat.mul_le_mul_right _ (by omega)
    rw [digitsVal_cons, List.length_cons, pow_succ]
    omega

/-- A number of `k + 1` digits is written with as many. -/
theorem length_toDigits {m k : Nat} (hlo : 10 ^ k ≤ m) (hhi : m < 10 ^ (k + 1)) :
    (Nat.toDigits 10 m).length = k + 1 := by
  have hle : (Nat.toDigits 10 m).length ≤ k + 1 := Nat.toDigits_length 10 m (k + 1) (Nat.succ_pos k) hhi
  have hlt := digitsVal_lt fun c hc => @isDigit_of_mem_toDigits m c hc
  rw [digitsVal_toDigits] at hlt
  have hpow : 10 ^ k < 10 ^ (Nat.toDigits 10 m).length := lt_of_le_of_lt hlo hlt
  have hgt := (Nat.pow_lt_pow_iff_right (by decide : 1 < 10)).mp hpow
  omega

theorem digitsVal_replicate_zero (k : Nat) : digitsVal (List.replicate k '0') = 0 := by
  induction k with
  | zero => rfl
  | succ k ih =>
    have hzero : '0'.toNat - 48 = 0 := rfl
    rw [List.replicate_succ, digitsVal_cons, ih, hzero, Nat.zero_mul]

theorem isDigit_of_mem_replicate {k : Nat} {c : Char} (h : c ∈ List.replicate k '0') : isDigit c = true := by
  rw [List.eq_of_mem_replicate h]
  decide

/-! ## Texts with a point -/

/-- What is left of the fraction, and the zeros taken off it. -/
theorem fraction_split (fraction : List Char) :
    ∃ k, fraction = fraction.rdropWhile (· == '0') ++ List.replicate k '0' := by
  refine ⟨(fraction.rtakeWhile (· == '0')).length, ?_⟩
  have hzeros : fraction.rtakeWhile (· == '0') = List.replicate (fraction.rtakeWhile (· == '0')).length '0' :=
    List.eq_replicate_of_mem fun c hc => by simpa using List.mem_rtakeWhile_imp hc
  rw [← hzeros, List.rdropWhile_append_rtakeWhile]

/-- A text with a point denotes its digits, all of them, over the power of ten
of the length of its fraction. -/
theorem stod_withFraction {whole fraction : List Char} (hne : whole ≠ []) (hw : ∀ c ∈ whole, isDigit c = true)
    (hf : ∀ c ∈ fraction, isDigit c = true) : stod (String.ofList (withFraction whole fraction)) =
      some ((digitsVal (whole ++ fraction) : ℚ) / 10 ^ fraction.length) := by
  obtain ⟨k, hk⟩ := fraction_split fraction
  have hkept : ∀ c ∈ fraction.rdropWhile (· == '0'), isDigit c = true :=
    fun c hc => hf c ((List.rdropWhile_prefix _ fraction).subset hc)
  have hvalue : (digitsVal (whole ++ fraction) : ℚ) / 10 ^ fraction.length =
      digitsVal (whole ++ fraction.rdropWhile (· == '0')) / 10 ^ (fraction.rdropWhile (· == '0')).length := by
    have hdigits : digitsVal (whole ++ fraction) =
        digitsVal (whole ++ fraction.rdropWhile (· == '0')) * 10 ^ k := by
      conv_lhs => rw [hk, ← List.append_assoc, digitsVal_append, digitsVal_replicate_zero, List.length_replicate]
      rfl
    have hlength : fraction.length = (fraction.rdropWhile (· == '0')).length + k := by
      conv_lhs => rw [hk, List.length_append, List.length_replicate]
    rw [hdigits, hlength, pow_add]
    push_cast
    field_simp
  rw [hvalue]
  unfold withFraction
  cases hs : fraction.rdropWhile (· == '0') with
  | nil =>
    let d : Decimal := { negative := false, whole, fraction := none, whole_digits := hw
                         fraction_digits := Decimal.noFraction_digits, some_digit := .inl hne }
    have hd := d.stod_text
    have htext : d.text = whole := List.append_nil whole
    have hval : d.value = digitsVal (whole ++ []) / 10 ^ ([] : List Char).length := rfl
    rwa [htext, hval] at hd
  | cons c cs =>
    rw [hs] at hkept
    let d : Decimal := { negative := false, whole, fraction := some (c :: cs), whole_digits := hw
                         fraction_digits := hkept, some_digit := .inl hne }
    exact d.stod_text

/-! ## Numbers that are not rounded -/

/-- `q` has at most `precision` significant digits. -/
def HasDigits (precision : Nat) (q : ℚ) : Prop := ∃ (d : Nat) (e : Int), d < 10 ^ precision ∧ q = d * 10 ^ e

/-- The digits of a number that has no more of them than the precision. -/
theorem scientific_exact {k : Nat} {q : ℚ} (hq : 0 < q) (h : HasDigits (k + 1) q) :
    ∃ m : Nat, scientific (k + 1) q = ⟨m, Int.log 10 q⟩ ∧ 10 ^ k ≤ m ∧ m < 10 ^ (k + 1) ∧
      q = m * 10 ^ (Int.log 10 q - k) := by
  obtain ⟨d, e, hd, hqd⟩ := h
  have h10 : (10 : ℚ) ≠ 0 := by norm_num
  have hlo : (10 : ℚ) ^ Int.log 10 q ≤ q := Int.zpow_log_le_self (by decide) hq
  have hhi : q < (10 : ℚ) ^ (Int.log 10 q + 1) := Int.lt_zpow_succ_log_self (by decide) q
  -- the leading digit stands among the `k + 1` places above `10^e`
  have hplaces : Int.log 10 q < e + (k + 1) := by
    have hlt : q < (10 : ℚ) ^ (e + (k + 1)) := by
      rw [hqd, zpow_add₀ h10, mul_comm]
      have hd' : (d : ℚ) < 10 ^ ((k : Int) + 1) := by exact_mod_cast hd
      exact mul_lt_mul_of_pos_left hd' (zpow_pos (by norm_num) e)
    exact (zpow_lt_zpow_iff_right₀ (by norm_num : (1 : ℚ) < 10)).mp (lt_of_le_of_lt hlo hlt)
  obtain ⟨n, hn⟩ := Int.eq_ofNat_of_zero_le (by omega : 0 ≤ e - (Int.log 10 q - k))
  have hscaled : q / 10 ^ (Int.log 10 q - k) = ((d * 10 ^ n : Nat) : ℚ) := by
    rw [hqd, mul_div_assoc, ← zpow_sub₀ h10, ← hqd, hn]
    push_cast
    rw [zpow_natCast]
  have hpos : (0 : ℚ) < 10 ^ (Int.log 10 q - k) := zpow_pos (by norm_num) _
  have hm : q = ((d * 10 ^ n : Nat) : ℚ) * 10 ^ (Int.log 10 q - k) := by
    rw [← hscaled, div_mul_cancel₀ q hpos.ne']
  have hmlo : 10 ^ k ≤ d * 10 ^ n := by
    have hle : (10 : ℚ) ^ (k : Int) ≤ ((d * 10 ^ n : Nat) : ℚ) := by
      rw [← hscaled, le_div_iff₀ hpos, ← zpow_add₀ h10]
      simpa using hlo
    exact_mod_cast hle
  have hmhi : d * 10 ^ n < 10 ^ (k + 1) := by
    have hlt : ((d * 10 ^ n : Nat) : ℚ) < (10 : ℚ) ^ ((k : Int) + 1) := by
      have hsum : (k : Int) + 1 + (Int.log 10 q - k) = Int.log 10 q + 1 := by ring
      rw [← hscaled, div_lt_iff₀ hpos, ← zpow_add₀ h10, hsum]
      exact hhi
    exact_mod_cast hlt
  refine ⟨d * 10 ^ n, ?_, hmlo, hmhi, hm⟩
  have hexp : Int.log 10 q - ((k + 1 : Nat) : Int) + 1 = Int.log 10 q - k := by
    push_cast
    ring
  unfold scientific
  dsimp only
  rw [hexp, hscaled, roundHalfEven_natCast, Int.toNat_natCast, if_neg hmhi.ne]

/-- The text of a positive number of at most `precision` digits. -/
theorem general_exact {k : Nat} {q : ℚ} (hq : 0 < q) {s : Scientific} (hs : scientific (k + 1) q = s) :
    general (k + 1) q = String.ofList (s.generalText (k + 1)) := by
  unfold general
  rw [if_neg hq.ne', if_neg (not_lt.mpr hq.le), hs]

namespace Scientific

theorem split_digits {s : Scientific} : ∀ c ∈ s.split.1 ++ s.split.2, isDigit c = true := by
  intro c hc
  unfold split at hc
  dsimp only at hc
  split at hc
  · rw [List.splitAt_eq, List.take_append_drop] at hc
    exact isDigit_of_mem_toDigits hc
  · rcases List.mem_append.mp hc with hc | hc
    · rw [List.mem_singleton.mp hc]
      decide
    · rcases List.mem_append.mp hc with hc | hc
      · exact isDigit_of_mem_replicate hc
      · exact isDigit_of_mem_toDigits hc

theorem split_value (s : Scientific) : digitsVal (s.split.1 ++ s.split.2) = s.significand := by
  unfold split
  dsimp only
  split
  · rw [List.splitAt_eq, List.take_append_drop, digitsVal_toDigits]
  · have hzero : digitsVal ['0'] = 0 := by decide
    rw [digitsVal_append, digitsVal_append, digitsVal_replicate_zero, digitsVal_toDigits, hzero]
    simp

/-- How many digits stand before and after the point. -/
theorem split_length {k : Nat} {s : Scientific} (hlo : 10 ^ k ≤ s.significand) (hhi : s.significand < 10 ^ (k + 1))
    (hx : s.exponent ≤ k) : (s.split.1.length : Int) = max 1 (s.exponent + 1) ∧
      (s.split.2.length : Int) = k - s.exponent := by
  have hlen := length_toDigits hlo hhi
  unfold split
  dsimp only
  split
  · simp only [List.splitAt_eq, List.length_take, List.length_drop, hlen]
    omega
  · simp only [List.length_append, List.length_replicate, List.length_singleton, hlen]
    omega

end Scientific

/-- A number of at most `k + 1` digits is written in full exactly if its
decimal exponent is from -4 to `k`. -/
theorem written_in_full_iff {k : Nat} {q : ℚ} (hq : 0 < q) :
    (-4 ≤ Int.log 10 q ∧ Int.log 10 q < (k + 1 : Nat)) ↔ 1 / 10000 ≤ q ∧ q < 10 ^ (k + 1) := by
  have hlo : -4 ≤ Int.log 10 q ↔ ((10 : Nat) : ℚ) ^ (-4 : Int) ≤ q := (Int.zpow_le_iff_le_log (by decide) hq).symm
  have hhi : Int.log 10 q < (k + 1 : Nat) ↔ q < ((10 : Nat) : ℚ) ^ ((k + 1 : Nat) : Int) :=
    (Int.lt_zpow_iff_log_lt (by decide) hq).symm
  have hsmall : ((10 : Nat) : ℚ) ^ (-4 : Int) = 1 / 10000 := by norm_num
  rw [hlo, hhi, hsmall, zpow_natCast]
  rfl

/-- **In full**: the text denotes the number, with as many digits before and
after the point as its exponent says. -/
theorem general_eq_fixed {k : Nat} {q : ℚ} (hq : 0 < q) (h : HasDigits (k + 1) q)
    (hlo : 1 / 10000 ≤ q) (hhi : q < 10 ^ (k + 1)) :
    ∃ whole fraction, general (k + 1) q = String.ofList (withFraction whole fraction) ∧
      (∀ c ∈ whole, isDigit c = true) ∧ (∀ c ∈ fraction, isDigit c = true) ∧
      0 < whole.length ∧ whole.length ≤ k + 1 ∧ fraction.length ≤ k + 4 ∧
      stod (general (k + 1) q) = some q := by
  obtain ⟨m, hs, hmlo, hmhi, hm⟩ := scientific_exact hq h
  obtain ⟨hxlo, hxhi⟩ := (written_in_full_iff hq).mpr ⟨hlo, hhi⟩
  let s : Scientific := ⟨m, Int.log 10 q⟩
  have hx : s.exponent ≤ k := by
    have : Int.log 10 q < (k + 1 : Nat) := hxhi
    show Int.log 10 q ≤ k
    omega
  have htext : general (k + 1) q = String.ofList (withFraction s.split.1 s.split.2) := by
    rw [general_exact hq hs]
    unfold Scientific.generalText
    rw [if_pos ⟨hxlo, hxhi⟩]
    rfl
  obtain ⟨hwhole, hfraction⟩ := Scientific.split_length (s := s) hmlo hmhi hx
  have hdigits := @Scientific.split_digits s
  have hw : ∀ c ∈ s.split.1, isDigit c = true := fun c hc => hdigits c (List.mem_append_left _ hc)
  have hf : ∀ c ∈ s.split.2, isDigit c = true := fun c hc => hdigits c (List.mem_append_right _ hc)
  have hne : 0 < s.split.1.length := by omega
  refine ⟨s.split.1, s.split.2, htext, hw, hf, hne, ?_, ?_, ?_⟩
  · omega
  · have : -4 ≤ s.exponent := hxlo
    omega
  · rw [htext, stod_withFraction (List.ne_nil_of_length_pos hne) hw hf, Scientific.split_value]
    have hpower : (10 : ℚ) ^ s.split.2.length = 10 ^ ((k : Int) - Int.log 10 q) := by
      rw [← zpow_natCast, hfraction]
    have hexp : (k : Int) - Int.log 10 q = -(Int.log 10 q - k) := by ring
    rw [hpower, hexp, zpow_neg, div_inv_eq_mul]
    exact congrArg some hm.symm

/-- **Scientific notation**: the text has an exponent. -/
theorem general_eq_scientific {k : Nat} {q : ℚ} (hq : 0 < q) (h : HasDigits (k + 1) q)
    (hout : ¬ (1 / 10000 ≤ q ∧ q < 10 ^ (k + 1))) : 'e' ∈ (general (k + 1) q).toList := by
  obtain ⟨m, hs, -⟩ := scientific_exact hq h
  have hx := mt (written_in_full_iff hq).mp hout
  rw [general_exact hq hs, String.toList_ofList]
  unfold Scientific.generalText
  rw [if_neg hx]
  exact List.mem_append_right _ List.mem_cons_self

end Sentum.Std
