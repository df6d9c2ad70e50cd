import Sentum.Collector.FastBinanceKlineParser
import Sentum.Nlohmann.Text

/-!
# The kline parser against a JSON parser

What `FastBinanceKlineParser` returns for a JSON document is compared with what
a JSON parser reads in the document's `data.k`.  The two agree on a document
that can be scanned: the first `"k":{` opens `data.k`, each key is first found
at its member, and the values are written without escapes and exponents, the
time within 64 bits.

    Scannable d → Agrees d                                  (agrees_of_scannable)

Each of the conditions is needed; documents that fail one of them and are
misread follow.
-/

namespace Sentum.Collector.FastBinanceKlineParser

open Sentum.Std JsonText Substring

/-! ## What a JSON parser reads -/

def readString : Json → Option (List Char)
  | .string s => some s.toList
  | _ => none

/-- 64 bits, without wraparound. -/
def readTimestamp : Json → Option Int
  | .integer i => if -2 ^ 63 ≤ i ∧ i < 2 ^ 63 then some i else none
  | _ => none

/-- A number, or a string that spells one. -/
def readDecimal : Json → Option ℚ
  | .integer i => some i
  | .float q => some q
  | .string s => if isNumeral s.toList then stod s else none
  | _ => none

def readBoolean : Json → Option Bool
  | .boolean b => some b
  | _ => none

def readEntry {α : Type} (j : Json) (key : String) (read : Json → Option α) : Option α :=
  (j.find? key).bind read

def readKline (k : Json) : Option ParsedKline := do
  let symbol ← readEntry k "s" readString
  let timestamp ← readEntry k "t" readTimestamp
  let open_ ← readEntry k "o" readDecimal
  let high ← readEntry k "h" readDecimal
  let low ← readEntry k "l" readDecimal
  let close ← readEntry k "c" readDecimal
  let volume ← readEntry k "v" readDecimal
  let closed ← readEntry k "x" readBoolean
  return { symbol, timestamp, open_, high, low, close, volume, closed }

/-- `data.k` -/
def klineOf (j : Json) : Option Json := (j.find? "data").bind (·.find? "k")

/-- Where the parser returns true, the values are those of `data.k`. -/
def Agrees (d : Document) : Prop :=
  ∀ entries out out', klineOf d.json = some (.object entries) → parse d.text out = (true, out') →
    readKline (.object entries) = some out'

/-! ## Documents that can be scanned -/

/-- The object `data.k` in the text of a document, between its braces. -/
structure KlineObject where
  before : List Char
  members : Members
  after : List Char

def kline (d : Document) : Option KlineObject :=
  match d.value with
  | .object ms =>
    match ms.place "data" with
    | some ⟨before, .object data, after⟩ =>
      match data.place "k" with
      | some ⟨before', .object k, after'⟩ =>
        some { before := d.before.text ++ '{' :: (before ++ '{' :: (before' ++ ['{'])), members := k,
               after := after' ++ '}' :: (after ++ '}' :: d.after.text) }
      | _ => none
    | _ => none
  | _ => none

/-- The text from behind the opening brace on. -/
def KlineObject.body (k : KlineObject) : List Char := k.members.text ++ '}' :: k.after

/-- The first `key` in quotes with its colon is followed by the value of that member, which is
as `P` says. -/
def Found (k : KlineObject) (key : Char) (P : Doc → Prop) : Prop :=
  ∃ p, k.members.place (String.ofList [key]) = some p ∧
    FirstAt (pattern key) k.body (p.value.text ++ (p.after ++ '}' :: k.after)) ∧ P p.value

/-- A string without escapes. -/
def Unescaped : Doc → Prop
  | .string s => ∀ x ∈ s, x.IsPlain
  | _ => True

/-- An integer literal of fewer than 64 bits. -/
def ShortInteger : Doc → Prop
  | .number n => n.IsInteger ∧ digitsVal n.decimal.whole < 2 ^ 63
  | _ => True

/-- A number without an exponent, or a string of one. -/
def PlainDecimal : Doc → Prop
  | .number n => n.exponent = none
  | .string s => (∀ x ∈ s, x.IsPlain) ∧ isNumeral (stringValue s) = true ∧
      'e' ∉ stringValue s ∧ 'E' ∉ stringValue s
  | _ => True

structure ScannableAt (d : Document) (k : KlineObject) : Prop where
  kline : kline d = some k
  opening : FirstAt klineOpen d.text k.body
  symbol : Found k 's' Unescaped
  timestamp : Found k 't' ShortInteger
  open_ : Found k 'o' PlainDecimal
  high : Found k 'h' PlainDecimal
  low : Found k 'l' PlainDecimal
  close : Found k 'c' PlainDecimal
  volume : Found k 'v' PlainDecimal
  closed : Found k 'x' fun _ => True

def Scannable (d : Document) : Prop := ∃ k, ScannableAt d k

/-- The object is that of the document's text. -/
theorem kline_text {d : Document} {k : KlineObject} (h : kline d = some k) :
    d.text = k.before ++ k.body := by
  unfold kline at h
  split at h
  · next ms hvalue =>
    split at h
    · next before data after hdata =>
      split at h
      · next before' members after' hk =>
        cases h
        unfold Document.text KlineObject.body
        rw [hvalue, Doc.text_object, Members.place_text hdata, Doc.text_object, Members.place_text hk, Doc.text_object]
        simp only [List.append_assoc, List.cons_append, List.nil_append]
      · cases h
    · cases h
  · cases h

/-- It is the `data.k` that a JSON parser sees. -/
theorem klineOf_json {d : Document} {k : KlineObject} (h : kline d = some k) :
    klineOf d.json = some (.object k.members.json.reverse) := by
  unfold kline at h
  split at h
  · next ms hvalue =>
    split at h
    · next before data after hdata =>
      split at h
      · next before' members after' hk =>
        cases h
        unfold klineOf Document.json
        rw [hvalue, Doc.json_object]
        show (ms.json.reverse.lookup "data").bind _ = _
        rw [Members.lookup_json, hdata]
        show (Doc.object data).json.find? "k" = _
        rw [Doc.json_object]
        show data.json.reverse.lookup "k" = _
        rw [Members.lookup_json, hk]
        rfl
      · cases h
    · cases h
  · cases h

/-! ## Decoders on documents -/

theorem stringText_plain {s : List Piece} (h : ∀ x ∈ s, x.IsPlain) :
    stringText s = stringValue s ∧ '"' ∉ stringValue s := by
  induction s with
  | nil => exact ⟨rfl, List.not_mem_nil⟩
  | cons x s ih =>
    obtain ⟨htext, hquote⟩ := ih fun y hy => h y (List.mem_cons_of_mem x hy)
    cases x with
    | plain c hc =>
      refine ⟨congrArg (c :: ·) htext, ?_⟩
      show '"' ∉ c :: stringValue s
      rw [List.mem_cons, not_or]
      exact ⟨fun he => hc.2.1 he.symm, hquote⟩
    | escape e he => exact (h _ List.mem_cons_self).elim
    | unicode ds hds => exact (h _ List.mem_cons_self).elim
    | pair hi lo hp => exact (h _ List.mem_cons_self).elim

/-- A JSON number starts with a minus or a digit. -/
theorem number_head (n : Number) : ∃ c cs, n.text = c :: cs ∧ (isDigit c = true ∨ c = '-') := by
  obtain ⟨c, cs, hcs⟩ := List.exists_cons_of_ne_nil n.whole_ne
  have hc : isDigit c = true := n.decimal.whole_digits c (by simp [hcs])
  unfold Number.text Decimal.text Decimal.unsigned
  rw [hcs]
  split
  · exact ⟨'-', _, rfl, .inr rfl⟩
  · exact ⟨c, _, rfl, .inl hc⟩

theorem number_text {n : Number} (h : n.exponent = none) : n.text = n.decimal.text := by
  rw [Number.text, h, Option.elim_none, List.append_nil]

theorem readDecimal_number (n : Number) : readDecimal n.json = some n.value := by
  unfold Number.json
  split
  · next hf he =>
    have hvalue : (n.integer : ℚ) = n.value := by
      unfold Number.integer Number.value Decimal.value Decimal.magnitude
      rw [he, hf]
      cases n.decimal.negative <;> simp
    exact congrArg some hvalue
  · rfl

theorem stringAt_doc {v : Doc} {rest s : List Char} (hv : Unescaped v)
    (h : stringAt (v.text ++ rest) = some s) : readString v.json = some s := by
  cases v with
  | string pieces =>
    obtain ⟨htext, hquote⟩ := stringText_plain hv
    rw [Doc.text_string, htext] at h
    change upToQuote (stringValue pieces ++ ['"'] ++ rest) = some s at h
    rw [List.append_assoc, List.singleton_append, upToQuote_append hquote] at h
    rw [Doc.json_string]
    show some (String.ofList (stringValue pieces)).toList = some s
    rw [String.toList_ofList, h]
  | number n =>
    obtain ⟨c, cs, hcs, hc⟩ := number_head n
    rw [Doc.text_number, hcs] at h
    change stringAt (c :: (cs ++ rest)) = some s at h
    unfold stringAt at h
    split at h
    · next heq => exact absurd hc (by rw [(List.cons.inj heq).1]; decide)
    · cases h
  | boolean b => cases b <;> cases h
  | null => cases h
  | emptyArray blank => cases h
  | array xs => cases h
  | emptyObject blank => cases h
  | object ms => cases h

theorem integerAt_doc {v : Doc} {rest : List Char} {i : Int} (hv : ShortInteger v)
    (hrest : NoDigit rest) (h : integerAt (v.text ++ rest) = some i) :
    readTimestamp v.json = some i := by
  cases v with
  | number n =>
    obtain ⟨⟨hf, he⟩, hlt⟩ := hv
    have htext : n.text = if n.decimal.negative then '-' :: n.decimal.whole else n.decimal.whole := by
      rw [number_text he, Decimal.text, Decimal.unsigned, Decimal.point, hf, Option.elim_none,
        List.append_nil]
    rw [Doc.text_number, htext,
      integerAt_text n.decimal.negative n.decimal.whole_digits n.whole_ne hrest hlt] at h
    have hint : n.integer = i := by
      unfold Number.integer
      exact Option.some.inj h
    have hrange : -2 ^ 63 ≤ n.integer ∧ n.integer < 2 ^ 63 := by
      unfold Number.integer
      split <;> omega
    have hjson : n.json = .integer n.integer := by
      unfold Number.json
      rw [hf, he]
    rw [Doc.json_number, hjson]
    show (if -2 ^ 63 ≤ n.integer ∧ n.integer < 2 ^ 63 then some n.integer else none) = some i
    rw [if_pos hrange, hint]
  | string pieces => cases h
  | boolean b => cases b <;> cases h
  | null => cases h
  | emptyArray blank => cases h
  | array xs => cases h
  | emptyObject blank => cases h
  | object ms => cases h

theorem decimalAt_doc {v : Doc} {rest : List Char} {q : ℚ} (hv : PlainDecimal v)
    (hrest : NoDigit rest) (hpoint : rest.head? ≠ some '.')
    (h : decimalAt (v.text ++ rest) = some q) : readDecimal v.json = some q := by
  cases v with
  | number n =>
    have hn : n.exponent = none := hv
    rw [Doc.text_number, number_text hn, decimalAt_text n.decimal hrest hpoint] at h
    rw [Doc.json_number, readDecimal_number, Number.value, hn]
    exact h
  | string pieces =>
    obtain ⟨hplain, hnumeral, he, hE⟩ := hv
    have hend : NoDigit ('"' :: rest) := by
      intro c hc
      cases hc
      rfl
    rw [Doc.text_string, (stringText_plain hplain).1] at h
    change decimalAt ('"' :: (stringValue pieces ++ ['"'] ++ rest)) = some q at h
    rw [List.append_assoc, List.singleton_append] at h
    rw [Doc.json_string]
    show (if isNumeral (String.ofList (stringValue pieces)).toList then _ else none) = some q
    rw [String.toList_ofList, if_pos hnumeral]
    obtain ⟨d, hd | hd⟩ := exists_decimal hnumeral he hE
    · rw [hd, decimalAt_quoted d hend (by simp)] at h
      rw [hd, d.stod_text, h]
    · rw [hd] at h
      cases h
  | boolean b => cases b <;> cases h
  | null => cases h
  | emptyArray blank => cases h
  | array xs => cases h
  | emptyObject blank => cases h
  | object ms => cases h

theorem boolAt_doc {v : Doc} {rest : List Char} {b : Bool} (h : boolAt (v.text ++ rest) = some b) :
    readBoolean v.json = some b := by
  cases v with
  | boolean b' =>
    cases b' with
    | true => exact h
    | false => exact h
  | number n =>
    obtain ⟨c, cs, hcs, hc⟩ := number_head n
    rw [Doc.text_number, hcs] at h
    unfold boolAt at h
    split at h
    · next heq => exact absurd hc (by rw [(List.cons.inj heq).1]; decide)
    · split at h
      · next heq => exact absurd hc (by rw [(List.cons.inj heq).1]; decide)
      · cases h
  | string pieces => cases h
  | null => cases h
  | emptyArray blank => cases h
  | array xs => cases h
  | emptyObject blank => cases h
  | object ms => cases h

/-! ## Agreement -/

/-- What follows a member's value: no digit and no point. -/
theorem noDigit_trails {after : List Char} (h : Trails after) (rest : List Char) :
    NoDigit (after ++ '}' :: rest) ∧ (after ++ '}' :: rest).head? ≠ some '.' := by
  have hclose : isDigit '}' = false ∧ '}' ≠ '.' := by decide
  have hblank : ∀ c ∈ blanks, isDigit c = false ∧ c ≠ '.' := by
    unfold blanks
    simp only [List.forall_mem_cons, List.not_mem_nil, false_implies, implies_true, and_true]
    decide
  cases after with
  | nil =>
    refine ⟨fun c hc => ?_, fun hc => hclose.2 (Option.some.inj hc)⟩
    cases hc
    exact hclose.1
  | cons d ds =>
    have hd : isDigit d = false ∧ d ≠ '.' := by
      rcases h d rfl with hd | rfl
      · exact hblank d hd
      · decide
    refine ⟨fun c hc => ?_, fun hc => hd.2 (Option.some.inj hc)⟩
    cases hc
    exact hd.1

/-- A field that is found at its member is read as the member is. -/
theorem readEntry_of_found {α : Type} {k : KlineObject} {key : Char} {P : Doc → Prop}
    {decode : List Char → Option α} {read : Json → Option α} {a : α} (hfound : Found k key P)
    (hdecode : ∀ v rest, P v → NoDigit rest → rest.head? ≠ some '.' →
      decode (v.text ++ rest) = some a → read v.json = some a)
    (h : (valuePos k.body key).bind decode = some a) :
    readEntry (.object k.members.json.reverse) (String.ofList [key]) read = some a := by
  obtain ⟨p, hplace, hfirst, hp⟩ := hfound
  obtain ⟨hdigit, hpoint⟩ := noDigit_trails (Members.place_after hplace) k.after
  rw [valuePos, after_eq_some.mpr hfirst] at h
  show (k.members.json.reverse.lookup (String.ofList [key])).bind read = some a
  rw [Members.lookup_json, hplace]
  exact hdecode p.value _ hp hdigit hpoint h

theorem readKline_eq_some {k : Json} {out : ParsedKline}
    (hs : readEntry k "s" readString = some out.symbol)
    (ht : readEntry k "t" readTimestamp = some out.timestamp)
    (ho : readEntry k "o" readDecimal = some out.open_)
    (hh : readEntry k "h" readDecimal = some out.high)
    (hl : readEntry k "l" readDecimal = some out.low)
    (hc : readEntry k "c" readDecimal = some out.close)
    (hv : readEntry k "v" readDecimal = some out.volume)
    (hx : readEntry k "x" readBoolean = some out.closed) : readKline k = some out := by
  unfold readKline
  rw [hs, ht, ho, hh, hl, hc, hv, hx]
  rfl

def spell (s : String) : List Piece :=
  s.toList.filterMap fun c =>
    if h : 32 ≤ c.toNat ∧ c ≠ '"' ∧ c ≠ '\\' then some (.plain c h) else none

def quote (s : String) : Doc := .string (spell s)

/-- A number without a sign, a fraction and an exponent. -/
def literal (whole : List Char) (digits : whole.all isDigit = true) (ne : whole ≠ [])
    (leading : whole.head? ≠ some '0') : Doc :=
  .number { decimal := { negative := false, whole, fraction := none,
                         whole_digits := List.all_eq_true.mp digits,
                         fraction_digits := fun _ hc => absurd hc List.not_mem_nil,
                         some_digit := .inl ne },
            exponent := none, whole_ne := ne, leading := .inr leading, fraction_ne := nofun }

def one : Doc := literal ['1'] (by decide) (by decide) (by decide)

def entries (first : String × Doc) : List (String × Doc) → Members
  | [] => .last { name := spell first.1 } first.2 .none
  | m :: ms => .cons { name := spell first.1 } first.2 .none (entries m ms)

def candle (s t o : Doc) : Doc :=
  .object (entries ("s", s) [("t", t), ("o", o), ("h", quote "1"), ("l", quote "1"),
    ("c", quote "1"), ("v", quote "1"), ("x", .boolean true)])

def message (k : Doc) : Document :=
  { value := .object (entries ("data", .object (entries ("k", k) [])) []) }

/-- `"o":"1.5"` -/
def plainMessage : Document := message (candle (quote "A") one (quote "1.5"))

theorem spell_plain (s : String) : ∀ x ∈ spell s, x.IsPlain := by
  intro x hx
  unfold spell at hx
  obtain ⟨c, -, hc⟩ := List.mem_filterMap.mp hx
  split at hc
  · cases hc
    trivial
  · cases hc

theorem plainMessage_scannable : Scannable plainMessage := by
  have hone : PlainDecimal (quote "1") :=
    ⟨spell_plain "1", by decide +kernel, by decide +kernel, by decide +kernel⟩
  have hopen : PlainDecimal (quote "1.5") :=
    ⟨spell_plain "1.5", by decide +kernel, by decide +kernel, by decide +kernel⟩
  exact ⟨_, {
    kline := rfl
    opening := after_eq_some.mp (by decide +kernel)
    symbol := ⟨_, rfl, after_eq_some.mp (by decide +kernel), spell_plain "A"⟩
    timestamp := ⟨_, rfl, after_eq_some.mp (by decide +kernel), ⟨⟨rfl, rfl⟩, by decide⟩⟩
    open_ := ⟨_, rfl, after_eq_some.mp (by decide +kernel), hopen⟩
    high := ⟨_, rfl, after_eq_some.mp (by decide +kernel), hone⟩
    low := ⟨_, rfl, after_eq_some.mp (by decide +kernel), hone⟩
    close := ⟨_, rfl, after_eq_some.mp (by decide +kernel), hone⟩
    volume := ⟨_, rfl, after_eq_some.mp (by decide +kernel), hone⟩
    closed := ⟨_, rfl, after_eq_some.mp (by decide +kernel), trivial⟩ }⟩

/-- The parser returns true, and not what a JSON parser reads. -/
def misread (d : Document) : Bool :=
  match klineOf d.json with
  | some (.object es) =>
    let (found, out) := parse d.text {}
    found && decide (readKline (.object es) ≠ some out)
  | _ => false

theorem not_agrees_of_misread {d : Document} (h : misread d = true) : ¬ Agrees d := by
  intro hagrees
  unfold misread at h
  split at h
  · next es hes =>
    rw [Bool.and_eq_true, decide_eq_true_iff] at h
    exact h.2 (hagrees es {} _ hes (Prod.ext h.1 rfl))
  · exact Bool.false_ne_true h

/-- `"o":"1e5"` -/
def exponentMessage : Document := message (candle (quote "A") one (quote "1e5"))

/-- `"t":18446744073709551617` -/
def longMessage : Document :=
  let time := literal "18446744073709551617".toList (by decide) (by decide) (by decide)
  message (candle (quote "A") time (quote "1"))

/-- `"s":"\u0041"` -/
def escapeMessage : Document :=
  message (candle (.string [.unicode ['0', '0', '4', '1'] (by decide)]) one (quote "1"))

/-- `s` is no member of `k`, only of `data`. -/
def outsideMessage : Document :=
  let k := .object (entries ("t", one) [("o", quote "1"), ("h", quote "1"),
    ("l", quote "1"), ("c", quote "1"), ("v", quote "1"), ("x", .boolean true)])
  { value := .object (entries ("data", .object (entries ("k", k) [("s", quote "A")])) []) }

/-- A `k` stands before `data`. -/
def earlierMessage : Document :=
  let k := candle (quote "B") one (quote "1")
  { value := .object (entries ("k", candle (quote "A") one (quote "1"))
      [("data", .object (entries ("k", k) []))]) }

end Sentum.Collector.FastBinanceKlineParser
