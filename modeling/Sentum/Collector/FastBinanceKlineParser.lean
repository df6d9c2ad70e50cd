import Mathlib.Algebra.Order.Ring.Rat
import Sentum.Lib.Substring
import Sentum.Std.Decimal

/-!
# The kline parser of the collector

`FastBinanceKlineParser` looks for `"k":{` in the payload and then, from there
on, for each key in quotes with its colon; what follows the first match is
decoded on the spot.  A position of a `std::string_view` is modelled by the
text from there on, `npos` by `none`.

    parse (render k e) out = (true, k.parsed)                    (parse_render)

for every candle `k` in Binance's compact layout, whatever the other fields `e`
hold.
-/

namespace Sentum.Collector

open Sentum.Std Substring

structure ParsedKline where
  symbol : List Char := []
  timestamp : Int := 0
  open_ : ℚ := 0
  high : ℚ := 0
  low : ℚ := 0
  close : ℚ := 0
  volume : ℚ := 0
  closed : Bool := false
deriving DecidableEq

namespace FastBinanceKlineParser

/-! ## Algorithm -/

def pattern (key : Char) : List Char := ['"', key, '"', ':']

def valuePos (body : List Char) (key : Char) : Option (List Char) := after (pattern key) body

/-- The text up to the next quote; none when there is none. -/
def upToQuote : List Char → Option (List Char)
  | [] => none
  | c :: cs => if c = '"' then some [] else (upToQuote cs).map (c :: ·)

def stringAt : List Char → Option (List Char)
  | '"' :: cs => upToQuote cs
  | _ => none

/-- The loops over `body[pos] >= '0' && body[pos] <= '9'`. -/
def digits {α : Type} (step : α → Nat → α) (acc : α) : List Char → α × List Char
  | [] => (acc, [])
  | c :: cs => if isDigit c then digits step (step acc (c.toNat - 48)) cs else (acc, c :: cs)

def takeMinus : List Char → Bool × List Char
  | '-' :: cs => (true, cs)
  | cs => (false, cs)

def takeQuote : List Char → List Char
  | '"' :: cs => cs
  | cs => cs

/-- `std::int64_t`; a signed overflow wraps. -/
def wrap (i : Int) : Int := i.bmod (2 ^ 64)

/-- `any` and `result` -/
def integerStep (acc : Bool × Int) (digit : Nat) : Bool × Int :=
  (true, wrap (wrap (acc.2 * 10) + digit))

def integerAt (text : List Char) : Option Int :=
  let (negative, text) := takeMinus text
  let ((any, result), _) := digits integerStep (false, 0) text
  if any then some (if negative then wrap (-result) else result) else none

def wholeStep (acc : Bool × ℚ) (digit : Nat) : Bool × ℚ := (true, acc.2 * 10 + digit)

/-- `any`, `result` and `scale` -/
def fractionStep (acc : Bool × ℚ × ℚ) (digit : Nat) : Bool × ℚ × ℚ :=
  (true, acc.2.1 + digit * acc.2.2, acc.2.2 * (1 / 10))

/-- The branch on a point. -/
def fractionAt (acc : Bool × ℚ) : List Char → Bool × ℚ
  | '.' :: cs =>
    let ((any, result, _), _) := digits fractionStep (acc.1, acc.2, 1 / 10) cs
    (any, result)
  | _ => acc

def decimalAt (text : List Char) : Option ℚ :=
  let (negative, text) := takeMinus (takeQuote text)
  let (acc, text) := digits wholeStep (false, 0) text
  let (any, result) := fractionAt acc text
  if any then some (if negative then -result else result) else none

def boolAt (text : List Char) : Option Bool :=
  if text.take 4 = ['t', 'r', 'u', 'e'] then some true
  else if text.take 5 = ['f', 'a', 'l', 's', 'e'] then some false
  else none

def stringField (body : List Char) (key : Char) : Option (List Char) :=
  (valuePos body key).bind stringAt

def integerField (body : List Char) (key : Char) : Option Int := (valuePos body key).bind integerAt

def decimalField (body : List Char) (key : Char) : Option ℚ := (valuePos body key).bind decimalAt

def boolField (body : List Char) (key : Char) : Option Bool := (valuePos body key).bind boolAt

/-- A field that is not read ends the `&&`; those before it are stored already. -/
def store {α : Type} (field : Option α) (set : ParsedKline → α → ParsedKline)
    (next : ParsedKline → Bool × ParsedKline) (out : ParsedKline) : Bool × ParsedKline :=
  match field with
  | none => (false, out)
  | some v => next (set out v)

/-- `"k":` and an opening brace -/
def klineOpen : List Char := ['"', 'k', '"', ':', '{']

def parse (payload : List Char) (out : ParsedKline) : Bool × ParsedKline :=
  match after klineOpen payload with
  | none => (false, out)
  | some body =>
    store (stringField body 's') (fun out symbol => { out with symbol })
      (store (integerField body 't') (fun out timestamp => { out with timestamp })
        (store (decimalField body 'o') (fun out open_ => { out with open_ })
          (store (decimalField body 'h') (fun out high => { out with high })
            (store (decimalField body 'l') (fun out low => { out with low })
              (store (decimalField body 'c') (fun out close => { out with close })
                (store (decimalField body 'v') (fun out volume => { out with volume })
                  (store (boolField body 'x') (fun out closed => { out with closed })
                    (fun out => (true, out))))))))) out

theorem store_eq_true {α : Type} {field : Option α} {set : ParsedKline → α → ParsedKline}
    {next : ParsedKline → Bool × ParsedKline} {out out' : ParsedKline} :
    store field set next out = (true, out') ↔
      ∃ v, field = some v ∧ next (set out v) = (true, out') := by
  unfold store
  cases field with
  | none => simp
  | some v => simp

/-- What a `true` of `parse` says: every field has been read. -/
theorem parse_eq_true {payload : List Char} {out out' : ParsedKline} :
    parse payload out = (true, out') ↔
      ∃ body, after klineOpen payload = some body ∧
        stringField body 's' = some out'.symbol ∧ integerField body 't' = some out'.timestamp ∧
        decimalField body 'o' = some out'.open_ ∧ decimalField body 'h' = some out'.high ∧
        decimalField body 'l' = some out'.low ∧ decimalField body 'c' = some out'.close ∧
        decimalField body 'v' = some out'.volume ∧ boolField body 'x' = some out'.closed := by
  unfold parse
  cases after klineOpen payload with
  | none => simp
  | some body =>
    simp only [store_eq_true, Option.some.injEq, exists_eq_left', Prod.mk.injEq, true_and]
    constructor
    · rintro ⟨s, hs, t, ht, o, ho, h, hh, l, hl, c, hc, v, hv, x, hx, rfl⟩
      exact ⟨hs, ht, ho, hh, hl, hc, hv, hx⟩
    · rintro ⟨hs, ht, ho, hh, hl, hc, hv, hx⟩
      exact ⟨_, hs, _, ht, _, ho, _, hh, _, hl, _, hc, _, hv, _, hx, rfl⟩

/-! ## Decoding -/

theorem digits_append {α : Type} (step : α → Nat → α) {ds rest : List Char}
    (hds : ∀ c ∈ ds, isDigit c = true) (hrest : NoDigit rest) (acc : α) :
    digits step acc (ds ++ rest) = (ds.foldl (fun acc c => step acc (c.toNat - 48)) acc, rest) := by
  induction ds generalizing acc with
  | nil =>
    cases rest with
    | nil => rfl
    | cons c cs =>
      have hc : isDigit c = false := hrest c rfl
      show (if isDigit c then _ else (acc, c :: cs)) = (acc, c :: cs)
      rw [hc, if_neg Bool.false_ne_true]
  | cons c ds ih =>
    show (if isDigit c then digits step (step acc (c.toNat - 48)) (ds ++ rest) else _) = _
    rw [hds c List.mem_cons_self, if_pos rfl, ih fun d hd => hds d (List.mem_cons_of_mem c hd)]
    rfl

theorem wrap_of_lt {i : Int} (hle : -2 ^ 63 < i) (hlt : i < 2 ^ 63) : wrap i = i :=
  Int.bmod_eq_of_le_mul_two (by omega) (by omega)

theorem wrap_step (z : Int) (d : Nat) : wrap (wrap (wrap z * 10) + d) = wrap (z * 10 + d) := by
  unfold wrap
  rw [Int.bmod_mul_bmod, Int.bmod_add_bmod]

theorem integer_fold (ds : List Char) (any : Bool) (z : Int) :
    ds.foldl (fun acc c => integerStep acc (c.toNat - 48)) (any, wrap z)
      = (any || !ds.isEmpty, wrap (z * 10 ^ ds.length + digitsVal ds)) := by
  induction ds generalizing any z with
  | nil => simp [digitsVal]
  | cons c ds ih =>
    show ds.foldl _ (true, wrap (wrap (wrap z * 10) + (c.toNat - 48 : Nat))) = _
    rw [wrap_step, ih, digitsVal_cons, List.length_cons]
    push_cast
    ring_nf
    simp

theorem whole_fold (ds : List Char) (acc : Bool × ℚ) :
    ds.foldl (fun acc c => wholeStep acc (c.toNat - 48)) acc
      = (acc.1 || !ds.isEmpty, acc.2 * 10 ^ ds.length + digitsVal ds) := by
  induction ds generalizing acc with
  | nil => simp [digitsVal]
  | cons c ds ih =>
    show ds.foldl _ (true, acc.2 * 10 + ((c.toNat - 48 : Nat) : ℚ)) = _
    rw [ih, digitsVal_cons, List.length_cons]
    push_cast
    ring_nf
    simp

/-- With `scale` at `10 ^ -k` the next `n` digits add their value at `10 ^ -(k + n - 1)`. -/
theorem fraction_fold (ds : List Char) (any : Bool) (result scale : ℚ) :
    ds.foldl (fun acc c => fractionStep acc (c.toNat - 48)) (any, result, scale)
      = (any || !ds.isEmpty, result + scale * 10 * digitsVal ds / 10 ^ ds.length,
          scale / 10 ^ ds.length) := by
  induction ds generalizing any result scale with
  | nil => simp [digitsVal]
  | cons c ds ih =>
    show ds.foldl _ (true, result + ((c.toNat - 48 : Nat) : ℚ) * scale, scale * (1 / 10)) = _
    rw [ih, digitsVal_cons, List.length_cons]
    have h10 : (10 : ℚ) ^ ds.length ≠ 0 := pow_ne_zero _ (by decide)
    push_cast
    refine Prod.ext (by simp) (Prod.ext ?_ ?_)
    · show _ + _ = _ + _
      field_simp
      ring
    · show _ / _ = _ / _
      field_simp
      ring

theorem integerAt_text (negative : Bool) {ds rest : List Char} (hds : ∀ c ∈ ds, isDigit c = true)
    (hne : ds ≠ []) (hrest : NoDigit rest) (hlt : digitsVal ds < 2 ^ 63) :
    integerAt ((if negative then '-' :: ds else ds) ++ rest)
      = some (if negative then -(digitsVal ds : Int) else digitsVal ds) := by
  have hminus : takeMinus ((if negative then '-' :: ds else ds) ++ rest) = (negative, ds ++ rest) := by
    cases negative with
    | true => rfl
    | false =>
      obtain ⟨c, cs, rfl⟩ := List.exists_cons_of_ne_nil hne
      have hc := hds c List.mem_cons_self
      show takeMinus (c :: (cs ++ rest)) = (false, c :: (cs ++ rest))
      unfold takeMinus
      split
      · next heq => exact absurd hc (by rw [(List.cons.inj heq).1]; decide)
      · rfl
  have hfold := integer_fold ds false 0
  have hany : (!ds.isEmpty) = true := by simp [hne]
  have hwrap : wrap (digitsVal ds) = digitsVal ds := wrap_of_lt (by omega) (by omega)
  have hneg : wrap (-(digitsVal ds : Int)) = -(digitsVal ds : Int) :=
    wrap_of_lt (by omega) (by omega)
  rw [zero_mul, zero_add, Bool.false_or, hany, hwrap] at hfold
  unfold integerAt
  rw [hminus]
  show (match digits integerStep (false, wrap 0) (ds ++ rest) with
    | ((any, result), _) => if any then some (if negative then wrap (-result) else result) else none) = _
  rw [digits_append integerStep hds hrest, hfold]
  show some (if negative then wrap (-(digitsVal ds : Int)) else (digitsVal ds : Int)) = _
  rw [hneg]

theorem fractionAt_point (d : Decimal) {rest : List Char} (hrest : NoDigit rest)
    (hpoint : rest.head? ≠ some '.') (acc : Bool × ℚ) :
    fractionAt acc (d.point ++ rest)
      = (acc.1 || !(d.fraction.getD []).isEmpty,
          acc.2 + digitsVal (d.fraction.getD []) / 10 ^ (d.fraction.getD []).length) := by
  unfold Decimal.point
  cases hf : d.fraction with
  | none =>
    show fractionAt acc rest = _
    unfold fractionAt
    split
    · exact absurd rfl hpoint
    · simp [digitsVal]
  | some ds =>
    have hdigits : ∀ c ∈ ds, isDigit c = true := by
      have := d.fraction_digits
      rwa [hf] at this
    show (match digits fractionStep (acc.1, acc.2, 1 / 10) (ds ++ rest) with
      | ((any, result, _), _) => (any, result)) = _
    rw [digits_append fractionStep hdigits hrest, fraction_fold]
    show (_, acc.2 + 1 / 10 * 10 * (digitsVal ds : ℚ) / _) = (_, _)
    rw [one_div, inv_mul_cancel₀ (by decide), one_mul]
    rfl

theorem takeMinus_text (d : Decimal) (rest : List Char) :
    takeMinus (d.text ++ rest) = (d.negative, d.unsigned ++ rest) := by
  unfold Decimal.text
  cases hn : d.negative with
  | true => rfl
  | false =>
    obtain ⟨c, cs, hcs, hc⟩ := d.unsigned_head
    show takeMinus (d.unsigned ++ rest) = _
    rw [hcs]
    show takeMinus (c :: (cs ++ rest)) = _
    unfold takeMinus
    split
    · next heq => exact absurd hc (by rw [(List.cons.inj heq).1]; decide)
    · rfl

theorem takeQuote_text (d : Decimal) (rest : List Char) :
    takeQuote (d.text ++ rest) = d.text ++ rest := by
  obtain ⟨c, cs, hcs, hc⟩ := d.unsigned_head
  unfold Decimal.text
  cases d.negative with
  | true => rfl
  | false =>
    show takeQuote (d.unsigned ++ rest) = d.unsigned ++ rest
    rw [hcs]
    show takeQuote (c :: (cs ++ rest)) = _
    unfold takeQuote
    split
    · next heq => exact absurd hc (by rw [(List.cons.inj heq).1]; decide)
    · rfl

theorem decimalAt_quoted (d : Decimal) {rest : List Char} (hrest : NoDigit rest)
    (hpoint : rest.head? ≠ some '.') : decimalAt ('"' :: (d.text ++ rest)) = some d.value := by
  have hany : (!d.whole.isEmpty || !(d.fraction.getD []).isEmpty) = true := by
    rcases d.some_digit with h | h
    · simp [h]
    · simp [h]
  have hvalue : (digitsVal d.whole : ℚ)
      + digitsVal (d.fraction.getD []) / 10 ^ (d.fraction.getD []).length = d.magnitude := by
    have h10 : (10 : ℚ) ^ (d.fraction.getD []).length ≠ 0 := pow_ne_zero _ (by decide)
    unfold Decimal.magnitude
    rw [digitsVal_append]
    push_cast
    field_simp
  unfold decimalAt
  show (match takeMinus (d.text ++ rest) with
    | (negative, text) => match digits wholeStep (false, 0) text with
      | (acc, text) => match fractionAt acc text with
        | (any, result) => if any then some (if negative then -result else result) else none) = _
  rw [takeMinus_text]
  show (match digits wholeStep (false, 0) (d.whole ++ d.point ++ rest) with
      | (acc, text) => match fractionAt acc text with
        | (any, result) => if any then some (if d.negative then -result else result) else none) = _
  rw [List.append_assoc, digits_append wholeStep d.whole_digits (d.noDigit_point hrest), whole_fold]
  show (match fractionAt _ (d.point ++ rest) with
    | (any, result) => if any then some (if d.negative then -result else result) else none) = _
  rw [fractionAt_point d hrest hpoint, zero_mul, zero_add, Bool.false_or, hany, hvalue]
  rfl

/-- Without the quote, as a JSON number. -/
theorem decimalAt_text (d : Decimal) {rest : List Char} (hrest : NoDigit rest)
    (hpoint : rest.head? ≠ some '.') : decimalAt (d.text ++ rest) = some d.value := by
  rw [← decimalAt_quoted d hrest hpoint]
  unfold decimalAt
  rw [takeQuote_text]
  rfl

theorem upToQuote_append {s : List Char} (h : '"' ∉ s) (rest : List Char) :
    upToQuote (s ++ '"' :: rest) = some s := by
  induction s with
  | nil => rfl
  | cons c s ih =>
    rw [List.mem_cons, not_or] at h
    show (if c = '"' then some [] else (upToQuote (s ++ '"' :: rest)).map (c :: ·)) = _
    rw [if_neg (Ne.symm h.1), ih h.2]
    rfl

/-! ## Binance's layout -/

def quoted (s : List Char) : List Char := '"' :: (s ++ ['"'])

/-- The members of a compact object, between its braces. -/
def members : List (List Char × List Char) → List Char
  | [] => []
  | [(key, value)] => quoted key ++ ':' :: value
  | (key, value) :: ms => quoted key ++ ':' :: (value ++ ',' :: members ms)

def object (ms : List (List Char × List Char)) : List Char := '{' :: (members ms ++ ['}'])

/-- The candle of a message; `open_` and the other four as the texts that are sent. -/
structure KlineRecord where
  symbol : List Char
  openTime : Nat
  open_ : Decimal
  high : Decimal
  low : Decimal
  close : Decimal
  volume : Decimal
  closed : Bool
  symbol_quotes : '"' ∉ symbol
  openTime_lt : openTime < 2 ^ 63

def KlineRecord.parsed (k : KlineRecord) : ParsedKline :=
  { symbol := k.symbol, timestamp := k.openTime, open_ := k.open_.value, high := k.high.value,
    low := k.low.value, close := k.close.value, volume := k.volume.value, closed := k.closed }

abbrev QuoteFree : Type := { s : List Char // '"' ∉ s }

/-- What the parser does not read: the texts of `stream`, `E` and the other members of `k`. -/
structure Unread where
  stream : QuoteFree
  eventTime : QuoteFree
  closeTime : QuoteFree
  interval : QuoteFree
  firstTrade : QuoteFree
  lastTrade : QuoteFree
  trades : QuoteFree
  quoteVolume : QuoteFree
  takerVolume : QuoteFree
  takerQuoteVolume : QuoteFree
  ignored : QuoteFree

def closedText (closed : Bool) : List Char := if closed then "true".toList else "false".toList

def klineMembers (k : KlineRecord) (u : Unread) : List (List Char × List Char) :=
  [(['t'], Nat.toDigits 10 k.openTime), (['T'], u.closeTime), (['s'], quoted k.symbol),
    (['i'], quoted u.interval), (['f'], u.firstTrade), (['L'], u.lastTrade),
    (['o'], quoted k.open_.text), (['c'], quoted k.close.text), (['h'], quoted k.high.text),
    (['l'], quoted k.low.text), (['v'], quoted k.volume.text), (['n'], u.trades),
    (['x'], closedText k.closed), (['q'], quoted u.quoteVolume), (['V'], quoted u.takerVolume),
    (['Q'], quoted u.takerQuoteVolume), (['B'], quoted u.ignored)]

def render (k : KlineRecord) (u : Unread) : List Char :=
  object [("stream".toList, quoted u.stream),
    ("data".toList, object [("e".toList, quoted "kline".toList), ("E".toList, u.eventTime),
      ("s".toList, quoted k.symbol), ("k".toList, object (klineMembers k u))])]

/-! ## Where a key is found -/

/-- A text in which quotes only enclose. -/
def Flat (v : List Char) : Prop := '"' ∉ v ∨ ∃ s, v = quoted s ∧ '"' ∉ s

section
variable {x : Char} {more : List Char}

/-- A quoted text is skipped, unless it is the key and a colon follows. -/
theorem after_quoted {s t : List Char} {c : Char} (hx : x ≠ '"') (hs : '"' ∉ s)
    (hkey : s ≠ [x] ∨ c ≠ ':') (hc : c ≠ x) :
    after ('"' :: x :: '"' :: ':' :: more) (quoted s ++ c :: t)
      = after ('"' :: x :: '"' :: ':' :: more) (c :: t) := by
  have hopen : ¬ '"' :: x :: '"' :: ':' :: more <+: '"' :: (s ++ '"' :: c :: t) := by
    intro hp
    have htail := (List.cons_prefix_cons.mp hp).2
    match s, hs, hkey, htail with
    | [], _, _, htail => exact hx (List.cons_prefix_cons.mp htail).1
    | [a], _, hkey, htail =>
      obtain ⟨ha, hrest⟩ := List.cons_prefix_cons.mp htail
      have hcolon := (List.cons_prefix_cons.mp (List.cons_prefix_cons.mp hrest).2).1
      rcases hkey with h | h
      · exact h (by rw [ha])
      · exact h hcolon.symm
    | a :: b :: s, hs, _, htail =>
      have hb := (List.cons_prefix_cons.mp (List.cons_prefix_cons.mp htail).2).1
      exact hs (List.mem_cons_of_mem a (List.mem_cons.mpr (.inl hb)))
  have hclose : ¬ '"' :: x :: '"' :: ':' :: more <+: '"' :: c :: t := by
    intro hp
    obtain ⟨-, hp⟩ := List.cons_prefix_cons.mp hp
    exact hc (List.cons_prefix_cons.mp hp).1.symm
  have hsplit : quoted s ++ c :: t = '"' :: (s ++ '"' :: c :: t) := by simp [quoted]
  rw [hsplit, after_cons hopen, after_append hs, after_cons hclose]

theorem after_flat {v t : List Char} {c : Char} (hx : x ≠ '"') (hv : Flat v) (hc : c ≠ ':')
    (hcx : c ≠ x) :
    after ('"' :: x :: '"' :: ':' :: more) (v ++ c :: t)
      = after ('"' :: x :: '"' :: ':' :: more) (c :: t) := by
  rcases hv with hv | ⟨s, rfl, hs⟩
  · exact after_append hv
  · exact after_quoted hx hs (.inr hc) hcx

/-- A member of another key is skipped, with the comma after it. -/
theorem after_member {key v t : List Char} (hx : x ∉ ['"', ':', ',']) (hkey : '"' ∉ key)
    (hne : key ≠ [x]) (hv : Flat v) :
    after ('"' :: x :: '"' :: ':' :: more) (quoted key ++ ':' :: (v ++ ',' :: t))
      = after ('"' :: x :: '"' :: ':' :: more) t := by
  simp only [List.mem_cons, List.not_mem_nil, or_false, not_or] at hx
  obtain ⟨hquote, hcolon, hcomma⟩ := hx
  rw [after_quoted hquote hkey (.inl hne) (Ne.symm hcolon), after_cons_ne (by decide),
    after_flat hquote hv (by decide) (Ne.symm hcomma), after_cons_ne (by decide)]

end

/-- The first member of a key is where the key is found. -/
theorem valuePos_members {ms : List (List Char × List Char)} {v t : List Char} {x : Char}
    (hx : x ∉ ['"', ':', ',']) (hms : ∀ m ∈ ms, '"' ∉ m.1 ∧ Flat m.2)
    (h : ms.lookup [x] = some v) :
    ∃ c rest, c ∈ [',', '}'] ∧ valuePos (members ms ++ '}' :: t) x = some (v ++ c :: rest) := by
  induction ms using members.induct with
  | case1 => cases h
  | case2 key value =>
    rw [List.lookup_cons] at h
    split at h
    · next hkey =>
      cases h
      rw [← eq_of_beq hkey]
      refine ⟨'}', t, by decide, ?_⟩
      have hsplit : members [([x], v)] ++ '}' :: t = pattern x ++ (v ++ '}' :: t) := by
        simp [members, quoted, pattern]
      rw [valuePos, hsplit, after_self]
    · cases h
  | case3 key value ms hne ih =>
    have hcons : members ((key, value) :: ms) ++ '}' :: t
        = quoted key ++ ':' :: (value ++ ',' :: (members ms ++ '}' :: t)) := by
      rw [members]
      · simp
      · exact hne
    rw [hcons]
    rw [List.lookup_cons] at h
    split at h
    · next hkey =>
      cases h
      rw [← eq_of_beq hkey]
      refine ⟨',', members ms ++ '}' :: t, by decide, ?_⟩
      have hsplit : quoted [x] ++ ':' :: (v ++ ',' :: (members ms ++ '}' :: t))
          = pattern x ++ (v ++ ',' :: (members ms ++ '}' :: t)) := rfl
      rw [valuePos, hsplit, after_self]
    · next hkey =>
      obtain ⟨hquotes, hflat⟩ := hms (key, value) List.mem_cons_self
      have hkey : key ≠ [x] := fun he => by simp [he] at hkey
      obtain ⟨c, rest, hc, hpos⟩ := ih (fun m hm => hms m (List.mem_cons_of_mem _ hm)) h
      exact ⟨c, rest, hc, by rw [valuePos, pattern, after_member hx hquotes hkey hflat]; exact hpos⟩

/-! ## Round trip -/

theorem noDigit_of_mem {c : Char} (hc : c ∈ [',', '}']) (rest : List Char) : NoDigit (c :: rest) := by
  intro d hd
  cases hd
  rcases List.mem_cons.mp hc with rfl | hc
  · rfl
  · rw [List.mem_singleton.mp hc]
    rfl

/-- A field reads what its decoder makes of the member's text. -/
theorem field_of_lookup {α : Type} {decode : List Char → Option α}
    {ms : List (List Char × List Char)} {v t : List Char} {x : Char} {a : α}
    (hms : ∀ m ∈ ms, '"' ∉ m.1 ∧ Flat m.2) (hx : x ∉ ['"', ':', ',']) (h : ms.lookup [x] = some v)
    (hdecode : ∀ c rest, c ∈ [',', '}'] → decode (v ++ c :: rest) = some a) :
    (valuePos (members ms ++ '}' :: t) x).bind decode = some a := by
  obtain ⟨c, rest, hc, hpos⟩ := valuePos_members hx hms h
  rw [hpos]
  exact hdecode c rest hc

theorem stringAt_quoted {s : List Char} (hs : '"' ∉ s) (c : Char) (rest : List Char) :
    stringAt (quoted s ++ c :: rest) = some s := by
  show upToQuote (s ++ ['"'] ++ c :: rest) = some s
  rw [List.append_assoc]
  exact upToQuote_append hs (c :: rest)

theorem decimalAt_member (d : Decimal) (c : Char) (rest : List Char) :
    decimalAt (quoted d.text ++ c :: rest) = some d.value := by
  have hquote : NoDigit ('"' :: c :: rest) := by
    intro e he
    cases he
    rfl
  show decimalAt ('"' :: (d.text ++ ['"'] ++ c :: rest)) = _
  rw [List.append_assoc]
  exact decimalAt_quoted d hquote (by simp)

theorem boolAt_closedText (closed : Bool) (rest : List Char) :
    boolAt (closedText closed ++ rest) = some closed := by
  cases closed with
  | true => rfl
  | false => rfl

theorem klineMembers_flat (k : KlineRecord) (u : Unread) :
    ∀ m ∈ klineMembers k u, '"' ∉ m.1 ∧ Flat m.2 := by
  have htime : '"' ∉ Nat.toDigits 10 k.openTime :=
    fun hq => absurd (isDigit_of_mem_toDigits hq) (by decide)
  have hclosed : '"' ∉ closedText k.closed := by cases k.closed <;> decide
  have hraw : ∀ s : QuoteFree, Flat s.1 := fun s => .inl s.2
  have hquoted : ∀ s : QuoteFree, Flat (quoted s.1) := fun s => .inr ⟨s.1, rfl, s.2⟩
  have hdecimal : ∀ d : Decimal, Flat (quoted d.text) := fun d => .inr ⟨d.text, rfl, d.text_quotes⟩
  unfold klineMembers
  simp only [List.forall_mem_cons, List.not_mem_nil, false_implies, implies_true, and_true]
  refine ⟨⟨by decide, .inl htime⟩, ⟨by decide, hraw _⟩, ⟨by decide, .inr ⟨_, rfl, k.symbol_quotes⟩⟩,
    ⟨by decide, hquoted _⟩, ⟨by decide, hraw _⟩, ⟨by decide, hraw _⟩, ⟨by decide, hdecimal _⟩,
    ⟨by decide, hdecimal _⟩, ⟨by decide, hdecimal _⟩, ⟨by decide, hdecimal _⟩, ⟨by decide, hdecimal _⟩,
    ⟨by decide, hraw _⟩, ⟨by decide, .inl hclosed⟩, ⟨by decide, hquoted _⟩, ⟨by decide, hquoted _⟩,
    ⟨by decide, hquoted _⟩, ⟨by decide, hquoted _⟩⟩

/-- The first `"k":{` of a message opens its candle. -/
theorem after_klineOpen_render (k : KlineRecord) (u : Unread) :
    after klineOpen (render k u) = some (members (klineMembers k u) ++ ['}', '}', '}']) := by
  have hk : 'k' ∉ ['"', ':', ','] := by decide
  have hsplit : render k u = '{' :: (quoted "stream".toList ++ ':' :: (quoted u.stream ++ ',' ::
      (quoted "data".toList ++ ':' :: '{' :: (quoted "e".toList ++ ':' :: (quoted "kline".toList ++ ',' ::
      (quoted "E".toList ++ ':' :: (u.eventTime ++ ',' ::
      (quoted "s".toList ++ ':' :: (quoted k.symbol ++ ',' ::
      (klineOpen ++ (members (klineMembers k u) ++ ['}', '}', '}']))))))))))) := by
    simp [render, object, members, klineOpen, quoted]
  rw [hsplit, klineOpen, after_cons_ne (by decide),
    after_member hk (by decide) (by decide) (.inr ⟨_, rfl, u.stream.2⟩),
    after_quoted (by decide) (by decide) (.inl (by decide)) (by decide), after_cons_ne (by decide),
    after_cons_ne (by decide), after_member hk (by decide) (by decide) (.inr ⟨_, rfl, by decide⟩),
    after_member hk (by decide) (by decide) (.inl u.eventTime.2),
    after_member hk (by decide) (by decide) (.inr ⟨_, rfl, k.symbol_quotes⟩)]
  exact after_self klineOpen _

/-- **Main result.** The parser returns every candle that is sent in Binance's layout. -/
theorem parse_render (k : KlineRecord) (u : Unread) (out : ParsedKline) :
    parse (render k u) out = (true, k.parsed) := by
  have hflat := klineMembers_flat k u
  have hdigits : ∀ c ∈ Nat.toDigits 10 k.openTime, isDigit c = true :=
    fun c hc => isDigit_of_mem_toDigits hc
  have hval := digitsVal_toDigits k.openTime
  rw [parse_eq_true]
  refine ⟨_, after_klineOpen_render k u, ?_, ?_, ?_, ?_, ?_, ?_, ?_, ?_⟩
  · exact field_of_lookup hflat (by decide) rfl fun c rest _ => stringAt_quoted k.symbol_quotes c rest
  · refine field_of_lookup hflat (by decide) rfl fun c rest hc => ?_
    have htext := integerAt_text false hdigits Nat.toDigits_ne_nil (noDigit_of_mem hc rest)
      (by rw [hval]; exact k.openTime_lt)
    rw [hval] at htext
    exact htext
  · exact field_of_lookup hflat (by decide) rfl fun c rest _ => decimalAt_member k.open_ c rest
  · exact field_of_lookup hflat (by decide) rfl fun c rest _ => decimalAt_member k.high c rest
  · exact field_of_lookup hflat (by decide) rfl fun c rest _ => decimalAt_member k.low c rest
  · exact field_of_lookup hflat (by decide) rfl fun c rest _ => decimalAt_member k.close c rest
  · exact field_of_lookup hflat (by decide) rfl fun c rest _ => decimalAt_member k.volume c rest
  · exact field_of_lookup hflat (by decide) rfl fun c rest _ => boolAt_closedText k.closed (c :: rest)

end FastBinanceKlineParser

end Sentum.Collector
