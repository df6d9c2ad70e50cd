import Mathlib.Data.Rat.Floor

/-!
# JSON values, as the program reads them

The part of the vendored `nlohmann::json` that the program uses: the value
type, `contains`, `at` and `value(key, default)` with its two exceptions (the
receiver is not an object: 306; the entry has another type: 302).  A `double`
is a rational, an object is a list of its entries with the first one of a key
counting.
-/

namespace Sentum

inductive Json where
  | null
  | boolean (b : Bool)
  | integer (i : Int)
  | float (q : ℚ)
  | string (s : String)
  | array (xs : List Json)
  | object (entries : List (String × Json))

namespace Json

def typeName : Json → String
  | null => "null"
  | boolean _ => "boolean"
  | integer _ => "number"
  | float _ => "number"
  | string _ => "string"
  | array _ => "array"
  | object _ => "object"

def typeError (expected : String) (j : Json) : String :=
  "[json.exception.type_error.302] type must be " ++ expected ++ ", but is " ++ j.typeName

/-- The entry of a key; none for what is not an object. -/
def find? (j : Json) (key : String) : Option Json :=
  match j with
  | object entries => entries.lookup key
  | _ => none

def contains (j : Json) (key : String) : Bool := (j.find? key).isSome

/-! ## `get<T>` -/

/-- `static_cast<std::int64_t>`: wraps modulo `2^64`. -/
def toInt64 (i : Int) : Int := i.bmod (2 ^ 64)

/-- Truncation toward zero. -/
def truncate (q : ℚ) : Int := if 0 ≤ q then ⌊q⌋ else ⌈q⌉

def getString : Json → Except String String
  | string s => .ok s
  | j => .error (typeError "string" j)

def getBoolean : Json → Except String Bool
  | boolean b => .ok b
  | j => .error (typeError "boolean" j)

def getDouble : Json → Except String ℚ
  | integer i => .ok i
  | float q => .ok q
  | j => .error (typeError "number" j)

def getInt64 : Json → Except String Int
  | integer i => .ok (toInt64 i)
  | float q => .ok (toInt64 (truncate q))
  | j => .error (typeError "number" j)

/-- `static_cast<int>`: wraps modulo `2^32`. -/
def getInt : Json → Except String Int
  | integer i => .ok (i.bmod (2 ^ 32))
  | float q => .ok ((truncate q).bmod (2 ^ 32))
  | j => .error (typeError "number" j)

/-- `std::size_t` is `number_unsigned_t`, so `2^64` values. -/
def getSize : Json → Except String Nat
  | integer i => .ok (i % 2 ^ 64).toNat
  | float q => .ok (truncate q % 2 ^ 64).toNat
  | j => .error (typeError "number" j)

/-- `get<std::vector<T>>` -/
def getArray {α : Type} (get : Json → Except String α) : Json → Except String (List α)
  | array xs => xs.mapM get
  | j => .error (typeError "array" j)

/-- `j.at(key)` -/
def entry (j : Json) (key : String) : Except String Json :=
  match j with
  | object entries =>
    match entries.lookup key with
    | some v => .ok v
    | none => .error ("[json.exception.out_of_range.403] key '" ++ key ++ "' not found")
  | _ => .error ("[json.exception.type_error.304] cannot use at() with " ++ j.typeName)

/-- What a range-based `for` runs over. -/
def elements : Json → List Json
  | null => []
  | array xs => xs
  | object entries => entries.map Prod.snd
  | j => [j]

/-- `j.value(key, fallback)`. -/
def value {α : Type} (get : Json → Except String α) (j : Json) (key : String) (fallback : α) :
    Except String α :=
  match j with
  | object entries =>
    match entries.lookup key with
    | some v => get v
    | none => .ok fallback
  | _ => .error ("[json.exception.type_error.306] cannot use value() with " ++ j.typeName)

/-- `std::size_t` has 64 bits. -/
theorem getSize_lt {j : Json} {n : Nat} (h : j.getSize = .ok n) : n < 2 ^ 64 := by
  have hmod : ∀ i : Int, (i % 2 ^ 64).toNat < 2 ^ 64 := by
    intro i
    have hlt := Int.emod_lt_of_pos i (by decide : (0 : Int) < 2 ^ 64)
    omega
  cases j with
  | integer i =>
    cases h
    exact hmod i
  | float q =>
    cases h
    exact hmod (truncate q)
  | _ => cases h

theorem value_of_find {α : Type} (get : Json → Except String α) (j : Json) (key : String)
    (fallback : α) {v : Json} (h : j.find? key = some v) : j.value get key fallback = get v := by
  cases j <;> simp_all [find?, value]

end Json

end Sentum
