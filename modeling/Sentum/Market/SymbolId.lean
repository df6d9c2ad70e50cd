import Mathlib.Data.Fin.VecNotation
import Sentum.Lib.XorMultiply

/-!
# Symbol hashes

`symbol_hash` is FNV-1a on the upper-cased bytes of a symbol.  A `Char` stands
for a byte, so a string is any sequence of bytes.

The hash does not see the case of a letter.  On symbols of six characters with
upper-cased codes up to 90 it is injective otherwise (`symbolHash_injective`).
-/

namespace Sentum.Market

/-- `if (c >= 'a' && c <= 'z') c = c - 'a' + 'A'` -/
def upperCode (c : Char) : Nat := if 97 ≤ c.toNat ∧ c.toNat ≤ 122 then c.toNat - 97 + 65 else c.toNat

def symbolHash (value : String) : UInt64 :=
  value.toList.foldl (fun hash c => (hash ^^^ (upperCode c).toUInt64) * 1099511628211) 1469598103934665603

/-- `c + 'a' - 'A'` for the letters from `A` to `Z` -/
theorem toNat_toLower (c : Char) :
    c.toLower.toNat = if 65 ≤ c.toNat ∧ c.toNat ≤ 90 then c.toNat + 32 else c.toNat := by
  have hrange : (c.val ≥ 'A'.val ∧ c.val ≤ 'Z'.val) ↔ (65 ≤ c.toNat ∧ c.toNat ≤ 90) := by
    rw [ge_iff_le, UInt32.le_iff_toNat_le, UInt32.le_iff_toNat_le]
    rfl
  unfold Char.toLower
  split
  · next h =>
    rw [if_pos (hrange.mp h)]
    show (c.val + ('a'.val - 'A'.val)).toNat = c.toNat + 32
    have hle := (hrange.mp h).2
    rw [UInt32.toNat_add]
    show (c.toNat + 32) % 2 ^ 32 = c.toNat + 32
    omega
  · next h => rw [if_neg fun hle => h (hrange.mpr hle)]

theorem upperCode_toLower (c : Char) : upperCode c.toLower = upperCode c := by
  unfold upperCode
  rw [toNat_toLower]
  by_cases hupper : 65 ≤ c.toNat ∧ c.toNat ≤ 90
  · rw [if_pos hupper, if_pos (by omega), if_neg (by omega)]
    omega
  · rw [if_neg hupper]

/-- **The hash ignores the case.** -/
theorem symbolHash_congr {s t : String} (h : s.toList.map Char.toLower = t.toList.map Char.toLower) :
    symbolHash s = symbolHash t := by
  have hcodes : ∀ u : String, symbolHash u = ((u.toList.map Char.toLower).map upperCode).foldl
      (fun hash c => (hash ^^^ c.toUInt64) * 1099511628211) 1469598103934665603 := by
    intro u
    unfold symbolHash
    rw [List.map_map, List.foldl_map]
    simp only [Function.comp_apply, upperCode_toLower]
  rw [hcodes, hcodes, h]

/-! ## Six characters -/

/-- Vectors of small numbers, congruent to multiples of `(p^6, …, p)` modulo `2^64`. -/
def hashRelation : Fin 6 → Fin 6 → Int :=
  ![![4482579670404340, -5247281785750212, -1973864442898476, -1178876700584228, -4977183758088268, 5046382459189116],
    ![-1150927258463695, 6373219910648459, -2407835907481655, -7420022407511405, -521531150890079, 2434785518635867],
    ![6302646686563376, -1535281643037936, 5452110822838448, -559839306353520, 5164142811992368, 4410605614494224],
    ![-10117495039556816, 644476066068496, 7704392091402160, -4253954618046064, -3431600937981904, 2518874921680656],
    ![10753435092956894, 1503490379027114, 2833942984976814, -84464088609638, -3509890893664258, -8107455562062582],
    ![-964417354571113, 6415703093100941, -1237812376006721, 6915764390345669, -1040540266766169, 8671412534092605]]

/-- Which multiples. -/
def hashFactor : Fin 6 → Int :=
  ![-5853314620625283948, 3043126869017570233, -4580056007442358864, 4102797547569945776, 4562491563806612942, 7698100873003003727]

/-- The inverse of the vectors, times `2^64`. -/
def hashInverse : Fin 6 → Fin 6 → Int :=
  ![![459, 281, 653, -498, 715, 135],
    ![-926, 995, -106, 48, 684, 939],
    ![-356, -551, 943, 1232, 713, 191],
    ![-387, -1392, -348, -181, 133, 970],
    ![-1225, 95, 1115, -811, -943, -527],
    ![847, 338, 697, 132, -544, 638]]

theorem six_independent : XorMultiply.Independent 1099511628211 (2 ^ 64) (2 * 90 : Nat) 6 := by
  have hcertificate : XorMultiply.Certificate 1099511628211 (2 ^ 64) (2 * 90 : Nat)
      hashFactor hashRelation hashInverse :=
    { multiple := by decide +kernel, small := by decide +kernel, inverts := by decide +kernel }
  exact XorMultiply.independent_of_certificate hcertificate (by decide)

theorem toNat_symbolHash (s : String) :
    (symbolHash s).toNat = XorMultiply.hash 1099511628211 (2 ^ 64) 1469598103934665603 (s.toList.map upperCode) := by
  have hfold : ∀ (cs : List Char) (h : UInt64),
      (cs.foldl (fun hash c => (hash ^^^ (upperCode c).toUInt64) * 1099511628211) h).toNat =
        XorMultiply.hash 1099511628211 (2 ^ 64) h.toNat (cs.map upperCode) := by
    intro cs
    induction cs with
    | nil => exact fun h => rfl
    | cons c cs ih =>
      intro h
      have hcode : (upperCode c).toUInt64.toNat = upperCode c := by
        refine Nat.mod_eq_of_lt ?_
        have hlt : c.toNat < 2 ^ 32 := c.val.toNat_lt
        unfold upperCode
        split <;> omega
      rw [List.foldl_cons, ih, UInt64.toNat_mul, UInt64.toNat_xor, hcode]
      rfl
  exact hfold s.toList 1469598103934665603

theorem symbolHash_injective {s t : String} (hs : s.toList.length = 6) (ht : t.toList.length = 6)
    (hs' : ∀ c ∈ s.toList, upperCode c ≤ 90) (ht' : ∀ c ∈ t.toList, upperCode c ≤ 90)
    (h : symbolHash s = symbolHash t) : s.toList.map upperCode = t.toList.map upperCode := by
  have hnat := congrArg UInt64.toNat h
  rw [toNat_symbolHash, toNat_symbolHash] at hnat
  refine XorMultiply.hash_injective six_independent 1469598103934665603 ?_ ?_ ?_ ?_ hnat
  · rw [List.length_map, hs]
  · rw [List.length_map, ht]
  · intro code hcode
    obtain ⟨c, hc, rfl⟩ := List.mem_map.mp hcode
    exact hs' c hc
  · intro code hcode
    obtain ⟨c, hc, rfl⟩ := List.mem_map.mp hcode
    exact ht' c hc

end Sentum.Market
