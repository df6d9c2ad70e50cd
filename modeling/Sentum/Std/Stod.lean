import Mathlib.Algebra.Group.Nat.Defs
import Mathlib.Data.Rat.Defs

/-!
# `std::stod` and `std::stoll` on decimal text

`stod` skips blanks, takes a sign and reads the longest prefix of the form
`digits[.digits][e[sign]digits]` (digits on at least one side of the point);
`none` is the `std::invalid_argument` of a text without such a prefix.  The
value is exact.  The hexadecimal, infinity and NaN spellings that the C
library also knows are not read.  `stoll` reads an integer in the same way and
is `none` for the `std::out_of_range` too.
-/

namespace Sentum.Std

def isSpace (c : Char) : Bool := c == ' ' || (9 ≤ c.toNat && c.toNat ≤ 13)

def isDigit (c : Char) : Bool := 48 ≤ c.toNat && c.toNat ≤ 57

/-- The number a digit string spells. -/
def digitsVal (ds : List Char) : Nat := ds.foldl (fun acc c => 10 * acc + (c.toNat - 48)) 0

/-- A leading sign, and what follows it. -/
def takeSign : List Char → Bool × List Char
  | '-' :: cs => (true, cs)
  | '+' :: cs => (false, cs)
  | cs => (false, cs)

/-- The decimal exponent at the front: 0 unless `e` is followed by digits. -/
def takeExponent : List Char → Int
  | [] => 0
  | c :: cs =>
    if c == 'e' || c == 'E' then
      let (negative, cs) := takeSign cs
      let digits := cs.takeWhile isDigit
      if negative then -(digitsVal digits : Int) else digitsVal digits
    else 0

/-- The fraction digits after a point, and what follows them. -/
def takeFraction : List Char → List Char × List Char
  | '.' :: cs => cs.span isDigit
  | cs => ([], cs)

/-- `mantissa · 10^exponent`. -/
def scale (mantissa : Nat) (exponent : Int) : ℚ :=
  if 0 ≤ exponent then (mantissa : ℚ) * 10 ^ exponent.toNat else (mantissa : ℚ) / 10 ^ (-exponent).toNat

def stod (text : String) : Option ℚ :=
  let (negative, cs) := takeSign (text.toList.dropWhile isSpace)
  let (whole, cs) := cs.span isDigit
  let (fraction, cs) := takeFraction cs
  if whole.isEmpty && fraction.isEmpty then none
  else
    let v := scale (digitsVal (whole ++ fraction)) (takeExponent cs - fraction.length)
    some (if negative then -v else v)

example : stod "0.25" = some (1 / 4) := by decide +kernel

example : stod " -12.5e-1x" = some (-5 / 4) := by decide +kernel

example : stod "abc" = none := by decide +kernel

def stoll (text : String) : Option Int :=
  let (negative, cs) := takeSign (text.toList.dropWhile isSpace)
  let digits := cs.takeWhile isDigit
  let v : Int := if negative then -(digitsVal digits : Int) else digitsVal digits
  -- in the range of `long long` exactly when reducing modulo `2^64` changes nothing
  if digits.isEmpty then none else if v.bmod (2 ^ 64) = v then some v else none

example : stoll " -12x" = some (-12) := by decide +kernel

example : stoll "9223372036854775808" = none := by decide +kernel

end Sentum.Std
