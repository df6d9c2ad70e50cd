import Sentum.Nlohmann.Json
import Sentum.Std.Decimal

/-!
# JSON documents as texts

A `Doc` is a JSON value as it is written: the blanks, the escapes and the
digits are part of it, and only texts of the grammar can be built.  `text` is
what is written, `json` the value that a parser makes of it; where an object
repeats a key, the last member counts.  `place` says where in an object's text
the member of a key stands.
-/

namespace Sentum.JsonText

open Sentum.Std

/-! ## Blanks, strings and numbers -/

def blanks : List Char := [' ', '\t', '\n', '\r']

structure Blank where
  text : List Char
  blank : ∀ c ∈ text, c ∈ blanks

def Blank.none : Blank := { text := [], blank := fun _ hc => absurd hc List.not_mem_nil }

/-- The letter after a backslash, and what the two stand for. -/
def escapes : List (Char × Char) :=
  [('"', '"'), ('\\', '\\'), ('/', '/'), ('b', Char.ofNat 8), ('f', Char.ofNat 12), ('n', '\n'),
    ('r', '\r'), ('t', '\t')]

def isHex (c : Char) : Bool := isDigit c || ('a' ≤ c && c ≤ 'f') || ('A' ≤ c && c ≤ 'F')

def hexDigit (c : Char) : Nat :=
  if isDigit c then c.toNat - 48 else if 'a' ≤ c then c.toNat - 87 else c.toNat - 55

def hexVal (ds : List Char) : Nat := ds.foldl (fun acc c => 16 * acc + hexDigit c) 0

/-- Four hexadecimal digits that name a code unit of a range. -/
def IsUnit (ds : List Char) (low high : Nat) : Prop :=
  ds.length = 4 ∧ ds.all isHex = true ∧ low ≤ hexVal ds ∧ hexVal ds ≤ high

instance (ds : List Char) (low high : Nat) : Decidable (IsUnit ds low high) :=
  inferInstanceAs (Decidable (_ ∧ _))

inductive Piece where
  | plain (c : Char) (h : 32 ≤ c.toNat ∧ c ≠ '"' ∧ c ≠ '\\')
  | escape (e : Char × Char) (h : e ∈ escapes)
  | unicode (ds : List Char) (h : IsUnit ds 0 0xD7FF ∨ IsUnit ds 0xE000 0xFFFF)
  /-- two surrogates -/
  | pair (hi lo : List Char) (h : IsUnit hi 0xD800 0xDBFF ∧ IsUnit lo 0xDC00 0xDFFF)

def Piece.text : Piece → List Char
  | plain c _ => [c]
  | escape e _ => ['\\', e.1]
  | unicode ds _ => '\\' :: 'u' :: ds
  | pair hi lo _ => '\\' :: 'u' :: hi ++ '\\' :: 'u' :: lo

def Piece.value : Piece → Char
  | plain c _ => c
  | escape e _ => e.2
  | unicode ds _ => Char.ofNat (hexVal ds)
  | pair hi lo _ => Char.ofNat (0x10000 + (hexVal hi - 0xD800) * 0x400 + (hexVal lo - 0xDC00))

def Piece.IsPlain : Piece → Prop
  | plain _ _ => True
  | _ => False

def stringText (s : List Piece) : List Char := s.flatMap Piece.text

def stringValue (s : List Piece) : List Char := s.map Piece.value

structure Exponent where
  marker : Char
  sign : List Char
  digits : List Char
  marker_ok : marker = 'e' ∨ marker = 'E'
  sign_ok : sign ∈ [[], ['+'], ['-']]
  digits_ok : ∀ c ∈ digits, isDigit c = true
  digits_ne : digits ≠ []

def Exponent.text (e : Exponent) : List Char := e.marker :: (e.sign ++ e.digits)

def Exponent.value (e : Exponent) : Int :=
  if e.sign = ['-'] then -(digitsVal e.digits : Int) else digitsVal e.digits

/-- `-?(0|[1-9][0-9]*)(.[0-9]+)?([eE][+-]?[0-9]+)?` -/
structure Number where
  decimal : Decimal
  exponent : Option Exponent
  whole_ne : decimal.whole ≠ []
  leading : decimal.whole = ['0'] ∨ decimal.whole.head? ≠ some '0'
  fraction_ne : decimal.fraction ≠ some []

namespace Number

def text (n : Number) : List Char := n.decimal.text ++ n.exponent.elim [] Exponent.text

def value (n : Number) : ℚ :=
  match n.exponent with
  | none => n.decimal.value
  | some e =>
    if 0 ≤ e.value then n.decimal.value * 10 ^ e.value.toNat
    else n.decimal.value / 10 ^ (-e.value).toNat

def IsInteger (n : Number) : Prop := n.decimal.fraction = none ∧ n.exponent = none

def integer (n : Number) : Int :=
  if n.decimal.negative then -(digitsVal n.decimal.whole : Int) else digitsVal n.decimal.whole

def json (n : Number) : Json :=
  match n.decimal.fraction, n.exponent with
  | none, none => .integer n.integer
  | _, _ => .float n.value

end Number

/-! ## Documents -/

/-- The blanks and the name of a member, up to its value. -/
structure Key where
  before : Blank := .none
  name : List Piece
  after : Blank := .none
  beforeValue : Blank := .none

def Key.text (k : Key) : List Char :=
  k.before.text ++ '"' :: (stringText k.name ++ '"' :: (k.after.text ++ ':' :: k.beforeValue.text))

mutual

inductive Doc where
  | null
  | boolean (b : Bool)
  | number (n : Number)
  | string (s : List Piece)
  | emptyArray (blank : Blank)
  | array (xs : Elements)
  | emptyObject (blank : Blank)
  | object (ms : Members)

inductive Elements where
  | last (before : Blank) (value : Doc) (after : Blank)
  | cons (before : Blank) (value : Doc) (after : Blank) (rest : Elements)

inductive Members where
  | last (key : Key) (value : Doc) (after : Blank)
  | cons (key : Key) (value : Doc) (after : Blank) (rest : Members)

end

mutual

def Doc.text : Doc → List Char
  | .null => "null".toList
  | .boolean b => if b then "true".toList else "false".toList
  | .number n => n.text
  | .string s => '"' :: (stringText s ++ ['"'])
  | .emptyArray blank => '[' :: (blank.text ++ [']'])
  | .array xs => '[' :: (xs.text ++ [']'])
  | .emptyObject blank => '{' :: (blank.text ++ ['}'])
  | .object ms => '{' :: (ms.text ++ ['}'])

def Elements.text : Elements → List Char
  | .last before value after => before.text ++ (value.text ++ after.text)
  | .cons before value after rest =>
    before.text ++ (value.text ++ (after.text ++ ',' :: rest.text))

def Members.text : Members → List Char
  | .last key value after => key.text ++ (value.text ++ after.text)
  | .cons key value after rest => key.text ++ (value.text ++ (after.text ++ ',' :: rest.text))

end

mutual

def Doc.json : Doc → Json
  | .null => .null
  | .boolean b => .boolean b
  | .number n => n.json
  | .string s => .string (String.ofList (stringValue s))
  | .emptyArray _ => .array []
  | .array xs => .array xs.json
  | .emptyObject _ => .object []
  | .object ms => .object ms.json.reverse

def Elements.json : Elements → List Json
  | .last _ value _ => [value.json]
  | .cons _ value _ rest => value.json :: rest.json

def Members.json : Members → List (String × Json)
  | .last key value _ => [(String.ofList (stringValue key.name), value.json)]
  | .cons key value _ rest => (String.ofList (stringValue key.name), value.json) :: rest.json

end

@[simp] theorem Doc.text_number (n : Number) : (Doc.number n).text = n.text := rfl

@[simp] theorem Doc.text_string (s : List Piece) : (Doc.string s).text = '"' :: (stringText s ++ ['"']) := rfl

@[simp] theorem Doc.text_object (ms : Members) : (Doc.object ms).text = '{' :: (ms.text ++ ['}']) := rfl

@[simp] theorem Doc.json_number (n : Number) : (Doc.number n).json = n.json := rfl

@[simp] theorem Doc.json_string (s : List Piece) :
    (Doc.string s).json = .string (String.ofList (stringValue s)) := rfl

@[simp] theorem Doc.json_object (ms : Members) : (Doc.object ms).json = .object ms.json.reverse := rfl

structure Document where
  before : Blank := .none
  value : Doc
  after : Blank := .none

def Document.text (d : Document) : List Char := d.before.text ++ (d.value.text ++ d.after.text)

def Document.json (d : Document) : Json := d.value.json

/-! ## Members -/

/-- A value within a text. -/
structure Place where
  before : List Char
  value : Doc
  after : List Char

/-- Where the member that counts has its value. -/
def Members.place (name : String) : Members → Option Place
  | .last key value after =>
    if String.ofList (stringValue key.name) = name then some ⟨key.text, value, after.text⟩ else none
  | .cons key value after rest =>
    match rest.place name with
    | some p => some ⟨key.text ++ (value.text ++ (after.text ++ ',' :: p.before)), p.value, p.after⟩
    | none =>
      if String.ofList (stringValue key.name) = name then
        some ⟨key.text, value, after.text ++ ',' :: rest.text⟩
      else none

theorem Members.place_text {name : String} :
    ∀ {ms : Members} {p : Place}, ms.place name = some p →
      ms.text = p.before ++ (p.value.text ++ p.after)
  | .last key value after, p, h => by
    rw [Members.place] at h
    split at h
    · cases h
      rfl
    · cases h
  | .cons key value after rest, p, h => by
    rw [Members.place] at h
    split at h
    · next q hq =>
      cases h
      rw [Members.text, Members.place_text hq]
      simp only [List.append_assoc, List.cons_append]
    · split at h
      · cases h
        rw [Members.text]
      · cases h

/-- The value that a parser keeps for a key is the one at its place. -/
theorem Members.lookup_json (name : String) :
    ∀ ms : Members, ms.json.reverse.lookup name = (ms.place name).map fun p => p.value.json
  | .last key value after => by
    rw [Members.json, Members.place, List.reverse_singleton, List.lookup_cons]
    by_cases hname : String.ofList (stringValue key.name) = name
    · rw [if_pos hname, beq_iff_eq.mpr hname.symm]
      rfl
    · rw [if_neg hname, beq_eq_false_iff_ne.mpr (Ne.symm hname)]
      rfl
  | .cons key value after rest => by
    rw [Members.json, Members.place, List.reverse_cons, List.lookup_append,
      Members.lookup_json name rest]
    cases rest.place name with
    | some q => rfl
    | none =>
      rw [Option.map_none, Option.none_or, List.lookup_cons]
      by_cases hname : String.ofList (stringValue key.name) = name
      · rw [if_pos hname, beq_iff_eq.mpr hname.symm]
        rfl
      · rw [if_neg hname, beq_eq_false_iff_ne.mpr (Ne.symm hname)]
        rfl

/-- A blank or a comma, or nothing: what can follow a member's value before the closing brace. -/
def Trails (text : List Char) : Prop := ∀ c ∈ text.head?, c ∈ blanks ∨ c = ','

theorem trails_blank (b : Blank) {text : List Char} (h : Trails text) : Trails (b.text ++ text) := by
  intro c hc
  cases hb : b.text with
  | nil => exact h c (by rwa [hb] at hc)
  | cons d ds =>
    rw [hb] at hc
    cases hc
    exact .inl (b.blank c (by simp [hb]))

theorem Members.place_after {name : String} :
    ∀ {ms : Members} {p : Place}, ms.place name = some p → Trails p.after
  | .last key value after, p, h => by
    rw [Members.place] at h
    split at h
    · cases h
      rw [← List.append_nil after.text]
      exact trails_blank after fun c hc => nomatch hc
    · cases h
  | .cons key value after rest, p, h => by
    rw [Members.place] at h
    split at h
    · next q hq =>
      cases h
      show Trails q.after
      exact Members.place_after hq
    · split at h
      · cases h
        refine trails_blank after fun c hc => ?_
        cases hc
        exact .inr rfl
      · cases h

end Sentum.JsonText
