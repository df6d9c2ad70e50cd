import Sentum.Std.GeneralFormat

/-!
# `double`, with its infinities and NaN

The values that arithmetic on what `std::stod` reads can meet: `inf - inf` is
NaN, and a NaN compares as neither greater nor less.  Finite values are exact.
`stodDouble` is `stod` with the spellings that it leaves out and with
`std::out_of_range`, which is `none` too.
-/

namespace Sentum.Std

inductive Double where
  | finite (q : ℚ)
  | infinite (negative : Bool)
  | nan
deriving DecidableEq

namespace Double

def neg : Double → Double
  | finite q => finite (-q)
  | infinite negative => infinite !negative
  | nan => nan

def abs : Double → Double
  | finite q => finite |q|
  | infinite _ => infinite false
  | nan => nan

def add : Double → Double → Double
  | nan, _ => nan
  | _, nan => nan
  | finite p, finite q => finite (p + q)
  | finite _, infinite negative => infinite negative
  | infinite negative, finite _ => infinite negative
  | infinite s, infinite t => if s = t then infinite s else nan

def sub (x y : Double) : Double := x.add y.neg

def lt : Double → Double → Bool
  | nan, _ => false
  | _, nan => false
  | finite p, finite q => p < q
  | finite _, infinite negative => !negative
  | infinite negative, finite _ => negative
  | infinite s, infinite t => s && !t

/-- `std::to_string`: six digits after the point. -/
def toString : Double → String
  | finite q =>
    let millionths := (roundHalfEven (|q| * 10 ^ 6)).toNat
    let digits := Nat.toDigits 10 (millionths % 10 ^ 6)
    (if q < 0 then "-" else "") ++ String.ofList (Nat.toDigits 10 (millionths / 10 ^ 6)) ++ "." ++
      String.ofList (List.replicate (6 - digits.length) '0' ++ digits)
  | infinite negative => if negative then "-inf" else "inf"
  | nan => "nan"

example : (finite (-5 / 4)).toString = "-1.250000" := by decide +kernel

/-- A value the type holds: not one that rounds to an infinity, and below the
normal ones only what needs no rounding. -/
def inRange (q : ℚ) : Prop :=
  q = 0 ∨ |q| < 2 ^ 1024 - 2 ^ 970 ∧ (1 / 2 ^ 1022 ≤ |q| ∨ (q * 2 ^ 1074).den = 1)

instance (q : ℚ) : Decidable (inRange q) := inferInstanceAs (Decidable (_ ∨ _))

/-- The value, unless it is out of range. -/
def ofRat (q : ℚ) : Option Double := if inRange q then some (finite q) else none

end Double

/-! ## The other spellings -/

def isHexDigit (c : Char) : Bool :=
  isDigit c || (65 ≤ c.toNat && c.toNat ≤ 70) || (97 ≤ c.toNat && c.toNat ≤ 102)

def hexDigitVal (c : Char) : Nat :=
  if isDigit c then c.toNat - 48 else if c.toNat ≤ 70 then c.toNat - 55 else c.toNat - 87

def hexDigitsVal (ds : List Char) : Nat := ds.foldl (fun acc c => 16 * acc + hexDigitVal c) 0

/-- The binary exponent at the front: 0 unless `p` is followed by digits. -/
def takeBinaryExponent : List Char → Int
  | [] => 0
  | c :: cs =>
    if c == 'p' || c == 'P' then
      let (negative, cs) := takeSign cs
      let digits := cs.takeWhile isDigit
      if negative then -(digitsVal digits : Int) else digitsVal digits
    else 0

def takeHexFraction : List Char → List Char × List Char
  | '.' :: cs => cs.span isHexDigit
  | cs => ([], cs)

/-- `0x` with at least one digit. -/
def takeHex : List Char → Option ℚ
  | '0' :: x :: cs =>
    if x == 'x' || x == 'X' then
      let (whole, cs) := cs.span isHexDigit
      let (fraction, cs) := takeHexFraction cs
      if whole.isEmpty && fraction.isEmpty then none
      else some (hexDigitsVal (whole ++ fraction) * 2 ^ (takeBinaryExponent cs - 4 * fraction.length))
    else none
  | _ => none

/-- The text starts with the word, in capitals or not. -/
def startsWith (word : String) (text : List Char) : Bool :=
  (text.take word.length).map Char.toLower == word.toList

def stodDouble (text : String) : Option Double :=
  let (negative, cs) := takeSign (text.toList.dropWhile isSpace)
  if startsWith "inf" cs then some (.infinite negative)
  else if startsWith "nan" cs then some .nan
  else
    match takeHex cs with
    | some v => Double.ofRat (if negative then -v else v)
    | none => (stod text).bind Double.ofRat

example : stodDouble "-Infinity" = some (.infinite true) := by decide +kernel

example : stodDouble " 0x1.8p1;" = some (.finite 3) := by decide +kernel

example : stodDouble "1e400" = none := by decide +kernel

namespace Decimal

variable (d : Decimal)

theorem unsigned_chars {c : Char} (h : c ∈ d.unsigned) : isDigit c = true ∨ c = '.' := by
  unfold unsigned at h
  rcases List.mem_append.mp h with h | h
  · exact .inl (d.whole_digits c h)
  · unfold point at h
    cases hf : d.fraction with
    | none =>
      rw [hf] at h
      cases h
    | some ds =>
      have hds := d.fraction_digits
      rw [hf] at h hds
      rcases List.mem_cons.mp h with h | h
      · exact .inr h
      · exact .inl (hds c h)

theorem toLower_of_char {c : Char} (h : isDigit c = true ∨ c = '.') : c.toLower = c := by
  have hle : c.toNat ≤ 57 := by
    rcases h with h | rfl
    · unfold isDigit at h
      rw [Bool.and_eq_true, decide_eq_true_iff, decide_eq_true_iff] at h
      exact h.2
    · decide
  unfold Char.toLower
  rw [dif_neg]
  intro hupper
  have hge : 65 ≤ c.toNat := UInt32.le_iff_toNat_le.mp hupper.1
  omega

/-- A decimal spells no word. -/
theorem startsWith_unsigned {word : String} {w : Char} {ws : List Char} (hword : word.toList = w :: ws)
    (hw : isDigit w = false ∧ w ≠ '.') : startsWith word d.unsigned = false := by
  unfold startsWith
  rw [beq_eq_false_iff_ne, hword]
  intro heq
  obtain ⟨c, cs, hcs, -⟩ := d.unsigned_head
  have hc := d.unsigned_chars (hcs ▸ List.mem_cons_self : c ∈ d.unsigned)
  have hlen : word.length = ws.length + 1 := by
    rw [← String.length_toList, hword, List.length_cons]
  rw [hcs, hlen, List.take_succ_cons, List.map_cons, toLower_of_char hc] at heq
  cases (List.cons.inj heq).1
  rcases hc with hc | hc
  · exact absurd (hw.1.symm.trans hc) (by decide)
  · exact hw.2 hc

theorem takeHex_unsigned : takeHex d.unsigned = none := by
  unfold takeHex
  split
  · next x cs heq =>
    have hx := d.unsigned_chars (heq ▸ List.mem_cons_of_mem _ List.mem_cons_self : x ∈ d.unsigned)
    have hnot : (x == 'x' || x == 'X') = false := by
      rw [Bool.or_eq_false_iff, beq_eq_false_iff_ne, beq_eq_false_iff_ne]
      constructor <;> rintro rfl <;> exact absurd hx (by decide)
    rw [hnot]
    rfl
  · rfl

/-- A decimal is read as its value, or is out of range. -/
theorem stodDouble_text : stodDouble (String.ofList d.text) = Double.ofRat d.value := by
  unfold stodDouble
  rw [d.stod_text, String.toList_ofList, dropWhile_text, takeSign_text]
  dsimp only
  rw [d.startsWith_unsigned rfl (by decide), d.startsWith_unsigned rfl (by decide), takeHex_unsigned]
  rfl

end Decimal

end Sentum.Std
