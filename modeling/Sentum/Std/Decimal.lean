import Mathlib.Algebra.Field.Rat
import Mathlib.Data.List.TakeWhile
import Mathlib.Tactic.FieldSimp
import Mathlib.Tactic.Ring
import Sentum.Std.Stod

/-!
# Decimal texts

`Decimal` is a text `-?digits(.digits)?` together with the proof that it is
one; either digit string may be empty, not both.  `isNumeral` is the wider
form that a string read as a number has: a leading plus and an exponent are
allowed, and nothing may follow.
-/

namespace Sentum.Std

/-! ## Digit strings -/

theorem digitsVal_append (xs ys : List Char) :
    digitsVal (xs ++ ys) = digitsVal xs * 10 ^ ys.length + digitsVal ys := by
  show Nat.ofDigitChars 10 (xs ++ ys) 0
    = Nat.ofDigitChars 10 xs 0 * 10 ^ ys.length + Nat.ofDigitChars 10 ys 0
  rw [Nat.ofDigitChars_append, Nat.ofDigitChars_eq_ofDigitChars_zero, Nat.mul_comm]

theorem digitsVal_cons (c : Char) (ds : List Char) :
    digitsVal (c :: ds) = (c.toNat - 48) * 10 ^ ds.length + digitsVal ds := by
  rw [← List.singleton_append, digitsVal_append]
  show (10 * 0 + (c.toNat - 48)) * _ + _ = _
  rw [Nat.mul_zero, Nat.zero_add]

theorem digitsVal_toDigits (n : Nat) : digitsVal (Nat.toDigits 10 n) = n :=
  Nat.ofDigitChars_ten_toDigits

theorem isDigit_of_mem_toDigits {n : Nat} {c : Char} (h : c ∈ Nat.toDigits 10 n) :
    isDigit c = true := by
  have hc : c.isDigit = true := Nat.isDigit_of_mem_toDigits (by decide) (by decide) h
  unfold Char.isDigit at hc
  rw [Bool.and_eq_true, decide_eq_true_iff, decide_eq_true_iff] at hc
  unfold isDigit
  rw [Bool.and_eq_true, decide_eq_true_iff, decide_eq_true_iff]
  exact ⟨UInt32.le_iff_toNat_le.mp hc.1, UInt32.le_iff_toNat_le.mp hc.2⟩

/-- No digit starts the text. -/
def NoDigit (text : List Char) : Prop := ∀ c ∈ text.head?, isDigit c = false

theorem span_digits {ds rest : List Char} (hds : ∀ c ∈ ds, isDigit c = true) (hrest : NoDigit rest) :
    (ds ++ rest).span isDigit = (ds, rest) := by
  have hnone : rest.takeWhile isDigit = [] ∧ rest.dropWhile isDigit = rest := by
    cases rest with
    | nil => exact ⟨rfl, rfl⟩
    | cons c cs =>
      have hc : isDigit c = false := hrest c rfl
      constructor
      · rw [List.takeWhile_cons_of_neg (by simp [hc])]
      · rw [List.dropWhile_cons_of_neg (by simp [hc])]
  rw [List.span_eq_takeWhile_dropWhile, List.takeWhile_append_of_pos hds,
    List.dropWhile_append_of_pos hds, hnone.1, hnone.2, List.append_nil]

/-! ## Decimals -/

structure Decimal where
  negative : Bool
  whole : List Char
  /-- the digits after the point, when there is one -/
  fraction : Option (List Char)
  whole_digits : ∀ c ∈ whole, isDigit c = true
  fraction_digits : ∀ c ∈ fraction.getD [], isDigit c = true
  some_digit : whole ≠ [] ∨ fraction.getD [] ≠ []

namespace Decimal

variable (d : Decimal)

def point : List Char := d.fraction.elim [] ('.' :: ·)

def unsigned : List Char := d.whole ++ d.point

def text : List Char := if d.negative then '-' :: d.unsigned else d.unsigned

def magnitude : ℚ := digitsVal (d.whole ++ d.fraction.getD []) / 10 ^ (d.fraction.getD []).length

def value : ℚ := if d.negative then -d.magnitude else d.magnitude

theorem noDigit_point {rest : List Char} (hrest : NoDigit rest) : NoDigit (d.point ++ rest) := by
  unfold point
  cases d.fraction with
  | none => exact hrest
  | some ds =>
    intro c hc
    cases hc
    rfl

/-- An unsigned decimal starts with a digit or a point. -/
theorem unsigned_head : ∃ c cs, d.unsigned = c :: cs ∧ (isDigit c = true ∨ c = '.') := by
  unfold unsigned point
  cases hw : d.whole with
  | cons c cs => exact ⟨c, _, rfl, .inl (d.whole_digits c (by simp [hw]))⟩
  | nil =>
    cases hf : d.fraction with
    | none => exact absurd d.some_digit (by simp [hw, hf])
    | some ds => exact ⟨'.', ds, rfl, .inr rfl⟩

theorem text_chars {c : Char} (h : c ∈ d.text) : isDigit c = true ∨ c = '-' ∨ c = '.' := by
  have hpoint : ∀ c ∈ d.point, isDigit c = true ∨ c = '-' ∨ c = '.' := by
    intro c hc
    unfold point at hc
    cases hf : d.fraction with
    | none =>
      rw [hf] at hc
      cases hc
    | some ds =>
      rw [hf] at hc
      rcases List.mem_cons.mp hc with rfl | hc
      · exact .inr (.inr rfl)
      · exact .inl (d.fraction_digits c (by rwa [hf]))
  have hunsigned : ∀ c ∈ d.unsigned, isDigit c = true ∨ c = '-' ∨ c = '.' := by
    intro c hc
    rcases List.mem_append.mp hc with hc | hc
    · exact .inl (d.whole_digits c hc)
    · exact hpoint c hc
  unfold text at h
  split at h
  · rcases List.mem_cons.mp h with rfl | h
    · exact .inr (.inl rfl)
    · exact hunsigned c h
  · exact hunsigned c h

theorem text_quotes : '"' ∉ d.text := fun h => absurd (d.text_chars h) (by decide)

/-- A decimal starts with a minus, a digit or a point. -/
theorem text_head : ∃ c cs, d.text = c :: cs ∧ (isDigit c = true ∨ c ∈ ['-', '.']) := by
  unfold text
  split
  · exact ⟨'-', d.unsigned, rfl, .inr (by decide)⟩
  · obtain ⟨c, cs, hcs, hc⟩ := d.unsigned_head
    exact ⟨c, cs, hcs, hc.imp_right fun h => by simp [h]⟩

theorem takeSign_text : takeSign d.text = (d.negative, d.unsigned) := by
  unfold text
  split
  · next hn =>
    rw [hn]
    rfl
  · next hn =>
    obtain ⟨c, cs, hcs, hc⟩ := d.unsigned_head
    rw [Bool.eq_false_of_not_eq_true hn, hcs]
    unfold takeSign
    split
    · next heq => exact absurd hc (by rw [(List.cons.inj heq).1]; decide)
    · next heq => exact absurd hc (by rw [(List.cons.inj heq).1]; decide)
    · rfl

theorem takeFraction_point : takeFraction d.point = (d.fraction.getD [], []) := by
  unfold point
  cases hf : d.fraction with
  | none => rfl
  | some ds =>
    have hds : ∀ c ∈ ds, isDigit c = true := by
      have := d.fraction_digits
      rwa [hf] at this
    have hspan := span_digits hds (fun c hc => nomatch hc : NoDigit [])
    rw [List.append_nil] at hspan
    exact hspan

theorem scale_magnitude :
    scale (digitsVal (d.whole ++ d.fraction.getD [])) (0 - ((d.fraction.getD []).length : Int))
      = d.magnitude := by
  unfold scale magnitude
  split
  · next h =>
    have hlen : (d.fraction.getD []).length = 0 := by omega
    rw [hlen]
    simp
  · have hlen : (-(0 - ((d.fraction.getD []).length : Int))).toNat = (d.fraction.getD []).length := by
      omega
    rw [hlen]

/-- No blank comes first. -/
theorem dropWhile_text : d.text.dropWhile isSpace = d.text := by
  obtain ⟨c, cs, hcs, hc⟩ := d.text_head
  have hc' : isSpace c = false := by
    rcases hc with hc | hc
    · unfold isDigit at hc
      unfold isSpace
      rw [Bool.and_eq_true, decide_eq_true_iff, decide_eq_true_iff] at hc
      rw [Bool.or_eq_false_iff, Bool.and_eq_false_iff, decide_eq_false_iff_not,
        decide_eq_false_iff_not]
      refine ⟨beq_eq_false_iff_ne.mpr fun he => ?_, .inr (by omega)⟩
      subst he
      exact absurd hc.1 (by decide)
    · rcases List.mem_cons.mp hc with rfl | hc
      · rfl
      · rw [List.mem_singleton.mp hc]
        rfl
  rw [hcs, List.dropWhile_cons_of_neg (by simp [hc'])]

/-- `stod` reads a decimal as its value. -/
theorem stod_text : stod (String.ofList d.text) = some d.value := by
  have hspan : d.unsigned.span isDigit = (d.whole, d.point) :=
    span_digits d.whole_digits (by
      have := d.noDigit_point (fun c hc => nomatch hc : NoDigit [])
      rwa [List.append_nil] at this)
  have hne : (d.whole.isEmpty && (d.fraction.getD []).isEmpty) = false := by
    rcases d.some_digit with h | h
    · simp [h]
    · simp [h]
  unfold stod
  rw [String.toList_ofList, dropWhile_text, takeSign_text]
  dsimp only
  rw [hspan]
  dsimp only
  rw [takeFraction_point]
  dsimp only
  rw [hne, if_neg Bool.false_ne_true]
  show some (if d.negative then -scale _ (0 - _) else scale _ (0 - _)) = _
  rw [scale_magnitude]
  rfl

/-! ## Integers -/

theorem noFraction_digits : ∀ c ∈ (none : Option (List Char)).getD [], isDigit c = true :=
  fun _ h => absurd h List.not_mem_nil

/-- What an output stream writes for an integer. -/
def ofInt (i : Int) : Decimal where
  negative := decide (i < 0)
  whole := Nat.toDigits 10 i.natAbs
  fraction := none
  whole_digits := fun _ => isDigit_of_mem_toDigits
  fraction_digits := noFraction_digits
  some_digit := Or.inl Nat.toDigits_ne_nil

theorem ofInt_text (i : Int) : (ofInt i).text = (toString i).toList := by
  rw [Int.toString_eq_repr]
  cases i with
  | ofNat n =>
    show (Nat.toDigits 10 n ++ [] : List Char) = (Nat.repr n).toList
    rw [List.append_nil, Nat.toList_repr]
  | negSucc n =>
    have hneg : (ofInt (Int.negSucc n)).negative = true := decide_eq_true (Int.negSucc_lt_zero n)
    unfold text
    rw [if_pos hneg]
    show ('-' :: (Nat.toDigits 10 (n + 1) ++ []) : List Char) = ("-" ++ Nat.repr (n + 1)).toList
    rw [List.append_nil, String.toList_append, Nat.toList_repr]
    rfl

/-- `stoll` reads an integer back, if `long long` holds it. -/
theorem stoll_toString {i : Int} (h : i.bmod (2 ^ 64) = i) : stoll (toString i) = some i := by
  have hdigits : (ofInt i).unsigned.takeWhile isDigit = Nat.toDigits 10 i.natAbs := by
    show (Nat.toDigits 10 i.natAbs ++ []).takeWhile isDigit = _
    rw [List.append_nil]
    exact List.takeWhile_eq_self_iff.mpr fun c => isDigit_of_mem_toDigits
  have hsign : (if (ofInt i).negative then -(i.natAbs : Int) else i.natAbs) = i := by
    by_cases hneg : i < 0
    · rw [if_pos (show (ofInt i).negative = true from decide_eq_true hneg)]
      omega
    · rw [if_neg (show ¬ (ofInt i).negative = true from fun h => hneg (of_decide_eq_true h))]
      omega
  unfold stoll
  rw [← ofInt_text, dropWhile_text, takeSign_text]
  dsimp only
  rw [hdigits, digitsVal_toDigits, if_neg (by simp [Nat.toDigits_ne_nil])]
  rw [hsign, if_pos h]

end Decimal

/-! ## Numerals -/

/-- Nothing, or an exponent that ends the text. -/
def isExponent : List Char → Bool
  | [] => true
  | c :: cs =>
    let ds := (takeSign cs).2
    (c == 'e' || c == 'E') && !ds.isEmpty && ds.all isDigit

def isUnsigned (text : List Char) : Bool :=
  let (whole, cs) := text.span isDigit
  let (fraction, cs) := takeFraction cs
  !(whole.isEmpty && fraction.isEmpty) && isExponent cs

/-- The whole text is `[+-]?digits(.digits)?([eE][+-]?digits)?`. -/
def isNumeral (text : List Char) : Bool := isUnsigned (takeSign text).2

theorem eq_nil_of_isExponent {cs : List Char} (h : isExponent cs = true) (he : 'e' ∉ cs)
    (hE : 'E' ∉ cs) : cs = [] := by
  cases cs with
  | nil => rfl
  | cons c cs =>
    unfold isExponent at h
    simp only [Bool.and_eq_true, Bool.or_eq_true, beq_iff_eq] at h
    rcases h.1.1 with rfl | rfl
    · exact absurd List.mem_cons_self he
    · exact absurd List.mem_cons_self hE

theorem exists_unsigned {text : List Char} (negative : Bool) (h : isUnsigned text = true)
    (he : 'e' ∉ text) (hE : 'E' ∉ text) :
    ∃ d : Decimal, d.negative = negative ∧ d.unsigned = text := by
  have hwhole : ∀ c ∈ text.takeWhile isDigit, isDigit c = true :=
    fun c hc => List.mem_takeWhile_imp hc
  have hsplit : text.takeWhile isDigit ++ text.dropWhile isDigit = text :=
    List.takeWhile_append_dropWhile
  have hmem : ∀ c ∈ text.dropWhile isDigit, c ∈ text :=
    fun c hc => (List.dropWhile_sublist isDigit).mem hc
  unfold isUnsigned at h
  rw [List.span_eq_takeWhile_dropWhile] at h
  dsimp only at h
  generalize text.takeWhile isDigit = whole at *
  generalize text.dropWhile isDigit = rest at *
  unfold takeFraction at h
  split at h
  · next cs =>
    rw [List.span_eq_takeWhile_dropWhile] at h
    dsimp only at h
    rw [Bool.and_eq_true, Bool.not_eq_true'] at h
    have hfraction : ∀ c ∈ cs.takeWhile isDigit, isDigit c = true :=
      fun c hc => List.mem_takeWhile_imp hc
    have hdrop : ∀ c ∈ cs.dropWhile isDigit, c ∈ text := fun c hc =>
      hmem c (List.mem_cons_of_mem '.' ((List.dropWhile_sublist isDigit).mem hc))
    have hnil := eq_nil_of_isExponent h.2 (fun hc => he (hdrop _ hc)) (fun hc => hE (hdrop _ hc))
    have hcs : cs.takeWhile isDigit = cs := by
      have := List.takeWhile_append_dropWhile (p := isDigit) (l := cs)
      rwa [hnil, List.append_nil] at this
    rw [hcs] at h hfraction
    refine ⟨{ negative, whole, fraction := some cs, whole_digits := hwhole,
              fraction_digits := hfraction, some_digit := ?_ }, rfl, hsplit⟩
    by_contra hno
    rw [not_or, not_not, not_not] at hno
    have hcs' : cs = [] := hno.2
    rw [hno.1, hcs'] at h
    exact absurd h.1 (by decide)
  · dsimp only at h
    rw [Bool.and_eq_true, Bool.not_eq_true'] at h
    have hnil := eq_nil_of_isExponent h.2 (fun hc => he (hmem _ hc)) (fun hc => hE (hmem _ hc))
    rw [hnil, List.append_nil] at hsplit
    refine ⟨{ negative, whole, fraction := none, whole_digits := hwhole,
              fraction_digits := Decimal.noFraction_digits, some_digit := .inl ?_ }, rfl, ?_⟩
    · rintro rfl
      exact absurd h.1 (by decide)
    · show whole ++ [] = text
      rw [List.append_nil, hsplit]

/-- A numeral without an exponent is a decimal, but for a leading plus. -/
theorem exists_decimal {text : List Char} (h : isNumeral text = true) (he : 'e' ∉ text)
    (hE : 'E' ∉ text) : ∃ d : Decimal, text = d.text ∨ text = '+' :: d.text := by
  unfold isNumeral takeSign at h
  split at h
  · next cs =>
    obtain ⟨d, hn, rfl⟩ := exists_unsigned true h (fun hc => he (List.mem_cons_of_mem _ hc))
      (fun hc => hE (List.mem_cons_of_mem _ hc))
    exact ⟨d, .inl (by rw [Decimal.text, hn, if_pos rfl])⟩
  · next cs =>
    obtain ⟨d, hn, rfl⟩ := exists_unsigned false h (fun hc => he (List.mem_cons_of_mem _ hc))
      (fun hc => hE (List.mem_cons_of_mem _ hc))
    exact ⟨d, .inr (by rw [Decimal.text, hn, if_neg Bool.false_ne_true])⟩
  · obtain ⟨d, hn, hd⟩ := exists_unsigned false h he hE
    exact ⟨d, .inl (by rw [Decimal.text, hn, if_neg Bool.false_ne_true, hd])⟩

end Sentum.Std
