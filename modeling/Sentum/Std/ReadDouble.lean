import Sentum.Std.GeneralText

/-!
# Reading a `double`

`std::stod` as it is: the number that the text starts with, rounded to the
nearest of 53 bits, an exception when that is out of range, and what is left of
the text.  A double written with 17 digits is read as itself
(`readDouble_general`).
-/

namespace Sentum.Std

open BinaryFloat

/-! ## Rounding -/

/-- To the nearest number of 53 bits, ties to even. -/
def roundDouble (v : ℚ) : ℚ :=
  if v = 0 then 0
  else
    let unit : ℚ := 2 ^ (Int.log 2 |v| - 52)
    roundHalfEven (v / unit) * unit

/-- No integer is nearer. -/
theorem roundHalfEven_nearest (q : ℚ) (n : Int) : |(roundHalfEven q : ℚ) - q| ≤ |(n : ℚ) - q| := by
  have hhalf := abs_roundHalfEven_sub_le q
  by_cases hn : n = roundHalfEven q
  · rw [hn]
  · have hone : (1 : ℚ) ≤ |(n : ℚ) - roundHalfEven q| := by
      have := Int.one_le_abs (sub_ne_zero.mpr hn)
      exact_mod_cast this
    have htriangle : |(n : ℚ) - roundHalfEven q| ≤ |(n : ℚ) - q| + |(roundHalfEven q : ℚ) - q| := by
      rw [abs_sub_comm (roundHalfEven q : ℚ) q]
      exact abs_sub_le _ q _
    linarith

section
variable {v : ℚ}

theorem roundDouble_of_ne (hv : v ≠ 0) : roundDouble v =
    roundHalfEven (v / 2 ^ (Int.log 2 |v| - 52)) * 2 ^ (Int.log 2 |v| - 52) := if_neg hv

/-- No multiple of the unit is nearer. -/
theorem roundDouble_le_grid (hv : v ≠ 0) (n : Int) :
    |roundDouble v - v| ≤ |(n : ℚ) * 2 ^ (Int.log 2 |v| - 52) - v| := by
  rw [roundDouble_of_ne hv]
  generalize hu : (2 : ℚ) ^ (Int.log 2 |v| - 52) = u
  have hpos : 0 < u := hu ▸ zpow_pos (by norm_num) _
  have hunit : ∀ m : Int, |(m : ℚ) * u - v| = |(m : ℚ) - v / u| * u := by
    intro m
    conv_rhs => rw [← abs_of_pos hpos, ← abs_mul, sub_mul, abs_of_pos hpos, div_mul_cancel₀ v hpos.ne']
  rw [hunit, hunit]
  exact mul_le_mul_of_nonneg_right (roundHalfEven_nearest _ n) hpos.le

theorem abs_lt_log (hv : v ≠ 0) : (2 : ℚ) ^ Int.log 2 |v| ≤ |v| ∧ |v| < 2 ^ (Int.log 2 |v| + 1) :=
  ⟨Int.zpow_log_le_self (by decide) (abs_pos.mpr hv), Int.lt_zpow_succ_log_self (by decide) |v|⟩

/-- The rounded number has 53 bits. -/
theorem isFloat_roundDouble (v : ℚ) : IsFloat 53 (roundDouble v) := by
  by_cases hv : v = 0
  · rw [hv]
    exact isFloat_zero 53
  obtain ⟨-, hhi⟩ := abs_lt_log hv
  rw [roundDouble_of_ne hv]
  generalize hr : roundHalfEven (v / 2 ^ (Int.log 2 |v| - 52)) = r
  have hpos : (0 : ℚ) < 2 ^ (Int.log 2 |v| - 52) := zpow_pos (by norm_num) _
  have hbound : |r| ≤ 2 ^ 53 := by
    have hscaled : |v / 2 ^ (Int.log 2 |v| - 52)| < 2 ^ 53 := by
      have hsum : (53 : Int) + (Int.log 2 |v| - 52) = Int.log 2 |v| + 1 := by ring
      rw [abs_div, abs_of_pos hpos, div_lt_iff₀ hpos, ← zpow_natCast, ← zpow_add₀ (by norm_num : (2 : ℚ) ≠ 0)]
      push_cast
      rw [hsum]
      exact hhi
    have herror := abs_roundHalfEven_sub_le (v / 2 ^ (Int.log 2 |v| - 52))
    rw [hr] at herror
    have htriangle : |(r : ℚ)| ≤ |(r : ℚ) - v / 2 ^ (Int.log 2 |v| - 52)| + |v / 2 ^ (Int.log 2 |v| - 52)| := by
      have := abs_add_le ((r : ℚ) - v / 2 ^ (Int.log 2 |v| - 52)) (v / 2 ^ (Int.log 2 |v| - 52))
      rwa [sub_add_cancel] at this
    have hlt : ((|r| : Int) : ℚ) < ((2 ^ 53 + 1 : Int) : ℚ) := by
      push_cast
      linarith
    have := Int.cast_lt.mp hlt
    omega
  by_cases hfull : |r| = 2 ^ 53
  · -- rounded up to the next power of two
    obtain ⟨m, hm⟩ : ∃ m : Int, r = 2 * m := by
      rcases abs_eq (by norm_num : (0 : Int) ≤ 2 ^ 53) |>.mp hfull with h | h
      · exact ⟨2 ^ 52, by omega⟩
      · exact ⟨-2 ^ 52, by omega⟩
    refine ⟨m, Int.log 2 |v| - 52 + 1, ?_, ?_⟩
    · rw [hm, abs_mul] at hfull
      have htwo : |(2 : Int)| = 2 := rfl
      rw [htwo] at hfull
      omega
    · rw [zpow_add_one₀ (by norm_num : (2 : ℚ) ≠ 0), hm]
      push_cast
      ring
  · exact ⟨r, Int.log 2 |v| - 52, lt_of_le_of_ne hbound hfull, rfl⟩

/-- No number of 53 bits is nearer. -/
theorem roundDouble_nearest {y : ℚ} (hy : IsFloat 53 y) : |roundDouble v - v| ≤ |y - v| := by
  by_cases hv : v = 0
  · subst hv
    rw [show roundDouble 0 = 0 from if_pos rfl, sub_self, abs_zero]
    exact abs_nonneg _
  obtain ⟨hlo, -⟩ := abs_lt_log hv
  have h2 : (2 : ℚ) ≠ 0 := by norm_num
  by_cases hbig : (2 : ℚ) ^ Int.log 2 |v| ≤ |y|
  · -- a multiple of the unit
    obtain ⟨m, e, hm, rfl⟩ := hy
    have hexp : Int.log 2 |v| - 52 ≤ e := by
      by_contra hsmall
      have hpow : (2 : ℚ) ^ e ≤ 2 ^ (Int.log 2 |v| - 53) := zpow_le_zpow_right₀ (by norm_num) (by omega)
      have hmq : |(m : ℚ)| < 2 ^ 53 := by exact_mod_cast hm
      have hlt : |(m : ℚ) * 2 ^ e| < 2 ^ Int.log 2 |v| := by
        have hsum : (2 : ℚ) ^ Int.log 2 |v| = 2 ^ 53 * 2 ^ (Int.log 2 |v| - 53) := by
          rw [← zpow_natCast, ← zpow_add₀ h2]
          congr 1
          push_cast
          ring
        rw [abs_mul, abs_of_pos (zpow_pos (by norm_num : (0 : ℚ) < 2) e), hsum]
        exact mul_lt_mul hmq hpow (zpow_pos (by norm_num) e) (by positivity)
      exact absurd hbig (not_le.mpr hlt)
    have hgrid : (m : ℚ) * 2 ^ e = ((m * 2 ^ (e - (Int.log 2 |v| - 52)).toNat : Int) : ℚ) * 2 ^ (Int.log 2 |v| - 52) := by
      push_cast
      rw [mul_assoc, ← zpow_natCast, ← zpow_add₀ h2, Int.toNat_of_nonneg (by omega)]
      congr 2
      ring
    rw [hgrid]
    exact roundDouble_le_grid hv _
  · -- the power of two between them is one
    have hsplit : (2 : ℚ) ^ Int.log 2 |v| = 2 ^ 52 * 2 ^ (Int.log 2 |v| - 52) := by
      rw [← zpow_natCast, ← zpow_add₀ h2]
      congr 1
      push_cast
      ring
    have hpower : ∀ s : Int, (s : ℚ) * 2 ^ Int.log 2 |v| = ((s * 2 ^ 52 : Int) : ℚ) * 2 ^ (Int.log 2 |v| - 52) := by
      intro s
      rw [hsplit, Int.cast_mul, mul_assoc, Int.cast_pow, Int.cast_ofNat]
    have hy' := abs_lt.mp (not_le.mp hbig)
    rcases le_or_gt 0 v with hpos | hneg
    · rw [abs_of_nonneg hpos] at *
      have hgrid := roundDouble_le_grid hv (1 * 2 ^ 52)
      rw [abs_of_nonneg hpos, ← hpower, Int.cast_one, one_mul] at hgrid
      refine hgrid.trans ?_
      rw [abs_sub_comm, abs_of_nonneg (by linarith), abs_sub_comm, abs_of_nonneg (by linarith)]
      linarith
    · rw [abs_of_neg hneg] at *
      have hgrid := roundDouble_le_grid hv (-1 * 2 ^ 52)
      rw [abs_of_neg hneg, ← hpower, Int.cast_neg, Int.cast_one, neg_one_mul] at hgrid
      refine hgrid.trans ?_
      rw [abs_of_nonneg (by linarith), abs_of_nonneg (by linarith)]
      linarith

/-- What is nearer to `v` than any other number of 53 bits is `v` rounded. -/
theorem roundDouble_eq {x : ℚ} (hx : IsFloat 53 x) (h : ∀ y, IsFloat 53 y → y ≠ x → |v - x| < |v - y|) :
    roundDouble v = x := by
  by_contra hne
  have hlt := h (roundDouble v) (isFloat_roundDouble v) hne
  have hle := roundDouble_nearest (v := v) hx
  rw [abs_sub_comm, abs_sub_comm x] at hle
  exact absurd hlt (not_lt.mpr hle)

end

/-! ## Reading -/

/-- A finite `double` that is not subnormal. -/
def IsDouble (x : ℚ) : Prop := IsFloat 53 x ∧ (x = 0 ∨ 1 / 2 ^ 1022 ≤ |x| ∧ |x| < 2 ^ 1024)

/-- `std::stod`, with `std::out_of_range`: an overflow, or a subnormal number
that is not exact. -/
def readDouble (text : String) : Option ℚ :=
  (stod text).bind fun v =>
    let x := roundDouble v
    if v = 0 then some 0
    else if 2 ^ 1024 ≤ |x| then none
    else if 1 / 2 ^ 1022 ≤ |x| then some x
    else if (v * 2 ^ 1074).den = 1 then some v else none

/-- An exponent at the front is read if it has digits. -/
def dropExponent : List Char → List Char
  | [] => []
  | c :: cs =>
    if c == 'e' || c == 'E' then
      let rest := (takeSign cs).2
      if (rest.takeWhile isDigit).isEmpty then c :: cs else rest.dropWhile isDigit
    else c :: cs

/-- What `std::stod` does not read of the text. -/
def stodRest (text : List Char) : List Char :=
  let cs := (takeSign (text.dropWhile isSpace)).2
  dropExponent (takeFraction (cs.span isDigit).2).2

example : stodRest "-1.5e+3".toList = [] ∧ stodRest "2e".toList = ['e'] ∧ stodRest "7 up".toList = " up".toList := by
  decide

theorem readDouble_of_nearest {text : List Char} {v x : ℚ} (ht : Denotes text v) (hx : IsDouble x)
    (hzero : v = 0 ↔ x = 0) (h : ∀ y, IsFloat 53 y → y ≠ x → |v - x| < |v - y|) :
    readDouble (String.ofList text) = some x := by
  unfold readDouble
  rw [ht.stod]
  show (if v = 0 then some 0 else _) = _
  rw [roundDouble_eq hx.1 h]
  by_cases hv : v = 0
  · rw [if_pos hv, hzero.mp hv]
  · obtain hno | ⟨hlo, hhi⟩ := hx.2
    · exact absurd (hzero.mpr hno) hv
    · rw [if_neg hv, if_neg (not_le.mpr hhi), if_pos hlo]

/-- **A `double` written with 17 digits is read as itself.** -/
theorem readDouble_general {q : ℚ} (h : IsDouble q) : readDouble (general 17 q) = some q := by
  obtain ⟨v, hv, hzero, hnearest⟩ := general_nearest h.1
  have hread := readDouble_of_nearest hv h hzero hnearest
  rwa [String.ofList_toList] at hread

theorem natCast_denotes (n : Nat) : Denotes (toString n).toList n := by
  refine ⟨Decimal.ofInt n, .inl ⟨?_, ?_⟩⟩
  · rw [Decimal.ofInt_text]
    rfl
  · have hpos : decide ((n : Int) < 0) = false := decide_eq_false (by omega)
    show (if decide ((n : Int) < 0) = true then _ else (digitsVal (Nat.toDigits 10 (n : Int).natAbs ++ []) : ℚ) / 10 ^ 0) = _
    rw [hpos, if_neg Bool.false_ne_true, List.append_nil, digitsVal_toDigits, pow_zero, div_one, Int.natAbs_natCast]

theorem isDouble_natCast {n : Nat} (h : n < 2 ^ 53) : IsDouble n := by
  refine ⟨isFloat_natCast h, ?_⟩
  rcases Nat.eq_zero_or_pos n with hzero | hpos
  · exact .inl (by rw [hzero]; rfl)
  · have hone : (1 : ℚ) ≤ n := by exact_mod_cast hpos
    have hlt : (n : ℚ) < 2 ^ 53 := by exact_mod_cast h
    have hsmall : (1 : ℚ) / 2 ^ 1022 ≤ 1 := by
      rw [div_le_one (by positivity)]
      exact one_le_pow₀ (by norm_num)
    have hbig : (2 : ℚ) ^ 53 ≤ 2 ^ 1024 := pow_le_pow_right₀ (by norm_num) (by norm_num)
    rw [Nat.abs_cast]
    exact .inr ⟨hsmall.trans hone, hlt.trans_le hbig⟩

/-- So is a whole number that a `double` holds. -/
theorem readDouble_natCast {n : Nat} (h : n < 2 ^ 53) : readDouble (toString n) = some (n : ℚ) := by
  have hread := readDouble_of_nearest (natCast_denotes n) (isDouble_natCast h) Iff.rfl
    (fun y hy hne => nearest (isFloat_natCast h) (.inl rfl) hy hne)
  rwa [String.ofList_toList] at hread

/-! ## Numerals -/

namespace Denotes

variable {text : List Char} {v : ℚ}

/-- A numeral is read to its end. -/
theorem rest (h : Denotes text v) : stodRest text = [] := by
  obtain ⟨d, ⟨rfl, -⟩ | ⟨negative, ds, hne, hds, rfl, -⟩⟩ := h
  · have hspan : d.unsigned.span isDigit = (d.whole, d.point) :=
      span_digits d.whole_digits (by
        have hnone : NoDigit [] := fun c hc => absurd hc (Option.not_mem_none c)
        have hpoint := d.noDigit_point hnone
        rwa [List.append_nil] at hpoint)
    unfold stodRest
    rw [d.dropWhile_text, d.takeSign_text]
    dsimp only
    rw [hspan, d.takeFraction_point]
    rfl
  · have hspan : (d.unsigned ++ exponentText negative ds).span isDigit =
        (d.whole, d.point ++ exponentText negative ds) := by
      rw [show d.unsigned = d.whole ++ d.point from rfl, List.append_assoc]
      exact span_digits d.whole_digits (d.noDigit_point (noDigit_exponentText negative ds))
    have hall : ds.takeWhile isDigit = ds := List.takeWhile_eq_self_iff.mpr hds
    have hnone : ds.dropWhile isDigit = [] := List.dropWhile_eq_nil_iff.mpr hds
    unfold stodRest
    rw [d.dropWhile_append, d.takeSign_append]
    dsimp only
    rw [hspan, d.takeFraction_append]
    cases negative <;> simp [dropExponent, exponentText, takeSign, hall, hnone, hne]

theorem chars (h : Denotes text v) {c : Char} (hc : c ∈ text) : isDigit c = true ∨ c ∈ ['-', '+', '.', 'e'] := by
  have hdecimal : ∀ d : Decimal, c ∈ d.text → isDigit c = true ∨ c ∈ ['-', '+', '.', 'e'] := by
    intro d hmem
    rcases d.text_chars hmem with h | rfl | rfl
    · exact .inl h
    · exact .inr (by decide)
    · exact .inr (by decide)
  obtain ⟨d, ⟨rfl, -⟩ | ⟨negative, ds, -, hds, rfl, -⟩⟩ := h
  · exact hdecimal d hc
  · rcases List.mem_append.mp hc with hc | hc
    · exact hdecimal d hc
    · rcases List.mem_cons.mp hc with rfl | hc
      · exact .inr (by decide)
      · rcases List.mem_cons.mp hc with rfl | hc
        · exact .inr (by cases negative <;> decide)
        · exact .inl (hds c hc)

theorem ne_nil (h : Denotes text v) : text ≠ [] := by
  obtain ⟨d, ⟨rfl, -⟩ | ⟨negative, ds, -, -, rfl, -⟩⟩ := h
  all_goals
    obtain ⟨c, cs, hcs, -⟩ := d.text_head
    rw [hcs]
    exact List.cons_ne_nil _ _

end Denotes

end Sentum.Std
