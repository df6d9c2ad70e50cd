import Sentum.Execution.ExchangeRules
import Sentum.Lib.OnePerKey

/-!
# The order of the filters

`LOT_SIZE` and `MARKET_LOT_SIZE` write the same three fields: the first where
they are still zero, the second always.  `MIN_NOTIONAL` and `NOTIONAL` write
one field, the later of them for good.  `orderIrrelevant_iff` says of which
filters the order can not matter: a `MARKET_LOT_SIZE` that leaves a zero, as
the exchange publishes it, counts differently before and after `LOT_SIZE`.
-/

namespace Sentum.Execution.ExchangeRules

open Sentum OnePerKey

/-! ## One filter -/

def typeOf (filter : Json) : String := (filter.value Json.getString "filterType" "").toOption.getD ""

def quantityOf (filter : Json) (key : String) : ℚ := (parse filter key).toOption.getD 0

/-- What a filter of the type is read for. -/
def keysOf (type : String) : List String :=
  if type = "LOT_SIZE" ∨ type = "MARKET_LOT_SIZE" then ["minQty", "maxQty", "stepSize"]
  else if type = "MIN_NOTIONAL" ∨ type = "NOTIONAL" then ["minNotional"]
  else []

/-- A filter with a type, and a number wherever one is read. -/
structure Readable (filter : Json) : Prop where
  type : filter.value Json.getString "filterType" "" = .ok (typeOf filter)
  quantities : ∀ key ∈ keysOf (typeOf filter), parse filter key = .ok (quantityOf filter key)

/-- The three fields that the lot filters write. -/
structure LotSize where
  minQty : ℚ := 0
  maxQty : ℚ := 0
  stepSize : ℚ := 0
deriving DecidableEq

def lotOf (filter : Json) : LotSize :=
  ⟨quantityOf filter "minQty", quantityOf filter "maxQty", quantityOf filter "stepSize"⟩

def lotSize (rules : ExchangeRules) : LotSize := ⟨rules.minQuantity, rules.maxQuantity, rules.stepSize⟩

/-- The later of two lots counts where the earlier is zero. -/
def LotSize.orElse (lot later : LotSize) : LotSize where
  minQty := if lot.minQty = 0 then later.minQty else lot.minQty
  maxQty := if lot.maxQty = 0 then later.maxQty else lot.maxQty
  stepSize := if lot.stepSize = 0 then later.stepSize else lot.stepSize

theorem LotSize.zero_orElse (lot : LotSize) : LotSize.orElse {} lot = lot := rfl

/-- The later lot changes nothing where it is zero with the earlier one. -/
theorem LotSize.orElse_eq_self_iff (lot later : LotSize) : lot.orElse later = lot ↔
    (lot.minQty = 0 → later.minQty = 0) ∧ (lot.maxQty = 0 → later.maxQty = 0) ∧
      (lot.stepSize = 0 → later.stepSize = 0) := by
  have hfield : ∀ p q : ℚ, (if p = 0 then q else p) = p ↔ (p = 0 → q = 0) := by
    intro p q
    by_cases h : p = 0
    · simp [h]
    · simp [h]
  obtain ⟨min, max, step⟩ := lot
  unfold orElse
  rw [LotSize.mk.injEq, hfield, hfield, hfield]

/-- A lot filter on what the earlier ones have left. -/
def lotStep (lot : LotSize) (filter : Json) : LotSize :=
  if typeOf filter = "MARKET_LOT_SIZE" then lotOf filter else lot.orElse (lotOf filter)

def isLot (filter : Json) : Bool := typeOf filter = "LOT_SIZE" ∨ typeOf filter = "MARKET_LOT_SIZE"

def isNotional (filter : Json) : Bool := typeOf filter = "MIN_NOTIONAL" ∨ typeOf filter = "NOTIONAL"

/-- `readFilter` of a readable filter. -/
def applied (rules : ExchangeRules) (filter : Json) : ExchangeRules :=
  if isLot filter then
    let lot := lotStep rules.lotSize filter
    { rules with minQuantity := lot.minQty, maxQuantity := lot.maxQty, stepSize := lot.stepSize }
  else if isNotional filter then { rules with minNotional := quantityOf filter "minNotional" }
  else rules

section
variable {filter : Json} {filters : List Json}

theorem readLot_eq (rules : ExchangeRules) (hmin : parse filter "minQty" = .ok (quantityOf filter "minQty"))
    (hmax : parse filter "maxQty" = .ok (quantityOf filter "maxQty"))
    (hstep : parse filter "stepSize" = .ok (quantityOf filter "stepSize")) :
    readLot (typeOf filter = "MARKET_LOT_SIZE") filter rules = .ok
      (let lot := lotStep rules.lotSize filter
       { rules with minQuantity := lot.minQty, maxQuantity := lot.maxQty, stepSize := lot.stepSize }) := by
  unfold readLot lotStep
  rw [hmin, hmax, hstep]
  by_cases hmarket : typeOf filter = "MARKET_LOT_SIZE"
  · simp [hmarket, lotOf, bind, Except.bind, pure, Except.pure]
  · by_cases h1 : rules.minQuantity = 0 <;> by_cases h2 : rules.maxQuantity = 0 <;>
      by_cases h3 : rules.stepSize = 0 <;>
      simp [hmarket, h1, h2, h3, lotOf, LotSize.orElse, lotSize, bind, Except.bind, pure, Except.pure]

theorem readFilter_eq (rules : ExchangeRules) (h : Readable filter) :
    readFilter rules filter = .ok (applied rules filter) := by
  unfold readFilter applied
  rw [h.type]
  simp only [bind, Except.bind]
  have hkeys := h.quantities
  unfold keysOf at hkeys
  by_cases hlot : typeOf filter = "LOT_SIZE" ∨ typeOf filter = "MARKET_LOT_SIZE"
  · have his : isLot filter = true := decide_eq_true hlot
    rw [if_pos hlot] at hkeys
    rw [if_pos hlot, if_pos his]
    exact readLot_eq rules (hkeys _ (by simp)) (hkeys _ (by simp)) (hkeys _ (by simp))
  · have hnot : ¬ isLot filter = true := fun h => hlot (of_decide_eq_true h)
    rw [if_neg hlot] at hkeys
    rw [if_neg hlot, if_neg hnot]
    by_cases hnotional : typeOf filter = "MIN_NOTIONAL" ∨ typeOf filter = "NOTIONAL"
    · have his : isNotional filter = true := decide_eq_true hnotional
      rw [if_pos hnotional] at hkeys
      rw [if_pos hnotional, if_pos his, hkeys _ (by simp)]
      rfl
    · have hnot : ¬ isNotional filter = true := fun h => hnotional (of_decide_eq_true h)
      rw [if_neg hnotional, if_neg hnot]
      rfl

theorem foldlM_readFilter (rules : ExchangeRules) (h : ∀ filter ∈ filters, Readable filter) :
    filters.foldlM readFilter rules = .ok (filters.foldl applied rules) := by
  induction filters generalizing rules with
  | nil => rfl
  | cons filter rest ih =>
    rw [List.foldlM_cons, readFilter_eq rules (h filter List.mem_cons_self), List.foldl_cons]
    exact ih _ fun f hf => h f (List.mem_cons_of_mem _ hf)

theorem lotSize_applied (rules : ExchangeRules) (filter : Json) : (applied rules filter).lotSize =
    if isLot filter then lotStep rules.lotSize filter else rules.lotSize := by
  unfold applied
  split
  · rfl
  · split <;> rfl

theorem not_isNotional_of_isLot (h : isLot filter = true) : isNotional filter = false := by
  have hlot : typeOf filter = "LOT_SIZE" ∨ typeOf filter = "MARKET_LOT_SIZE" := of_decide_eq_true h
  unfold isNotional
  rcases hlot with htype | htype <;> rw [htype] <;> decide

theorem minNotional_applied (rules : ExchangeRules) (filter : Json) : (applied rules filter).minNotional =
    if isNotional filter then quantityOf filter "minNotional" else rules.minNotional := by
  unfold applied
  split
  · next hlot => rw [not_isNotional_of_isLot hlot]; rfl
  · split <;> rfl

theorem precisions_applied (rules : ExchangeRules) (filter : Json) :
    (applied rules filter).basePrecision = rules.basePrecision ∧
      (applied rules filter).quotePrecision = rules.quotePrecision := by
  unfold applied
  split
  · exact ⟨rfl, rfl⟩
  · split <;> exact ⟨rfl, rfl⟩

/-! ## All filters -/

theorem lotSize_foldl (rules : ExchangeRules) (filters : List Json) :
    (filters.foldl applied rules).lotSize = (filters.filter isLot).foldl lotStep rules.lotSize := by
  rw [List.foldl_filter]
  exact (List.foldl_hom lotSize fun r f => (lotSize_applied r f).symm).symm

theorem minNotional_foldl (rules : ExchangeRules) (filters : List Json) :
    (filters.foldl applied rules).minNotional =
      (filters.filter isNotional).foldl (fun _ f => quantityOf f "minNotional") rules.minNotional := by
  rw [List.foldl_filter]
  exact (List.foldl_hom minNotional fun r f => (minNotional_applied r f).symm).symm

theorem precisions_foldl (rules : ExchangeRules) (filters : List Json) :
    (filters.foldl applied rules).basePrecision = rules.basePrecision ∧
      (filters.foldl applied rules).quotePrecision = rules.quotePrecision := by
  induction filters generalizing rules with
  | nil => exact ⟨rfl, rfl⟩
  | cons filter rest ih =>
    obtain ⟨hbase, hquote⟩ := precisions_applied rules filter
    rw [List.foldl_cons, ← hbase, ← hquote]
    exact ih _

/-- What the lot filters leave of the three fields. -/
def lots (filters : List Json) : LotSize := (filters.filter isLot).foldl lotStep {}

/-- What the notional filters leave of theirs. -/
def notional (filters : List Json) : ℚ :=
  (filters.filter isNotional).foldl (fun _ filter => quantityOf filter "minNotional") 0

/-- The rules of the filters. -/
def rulesOf (basePrecision quotePrecision : Int) (filters : List Json) : ExchangeRules where
  minQuantity := (lots filters).minQty
  maxQuantity := (lots filters).maxQty
  stepSize := (lots filters).stepSize
  minNotional := notional filters
  basePrecision
  quotePrecision

/-- **The lot filters and the notional filters do not meet.** -/
theorem foldl_applied (basePrecision quotePrecision : Int) (filters : List Json) :
    filters.foldl applied { basePrecision, quotePrecision } =
      rulesOf basePrecision quotePrecision filters := by
  have hlots := lotSize_foldl { basePrecision, quotePrecision } filters
  have hnotional := minNotional_foldl { basePrecision, quotePrecision } filters
  obtain ⟨hbase, hquote⟩ := precisions_foldl { basePrecision, quotePrecision } filters
  generalize filters.foldl applied _ = rules at hlots hnotional hbase hquote
  obtain ⟨min, max, step, least, base, quote⟩ := rules
  cases hbase
  cases hquote
  cases hnotional
  have hlots : (⟨min, max, step⟩ : LotSize) = lots filters := hlots
  unfold rulesOf
  rw [← hlots]
  rfl

end

/-! ## The answer of the exchange -/

/-- An `exchangeInfo` answer around the filters of a trading symbol. -/
structure Listing (symbol : String) where
  /-- the other fields of the answer, and the entries before and after the symbol's -/
  others : List (String × Json)
  before : List Json
  after : List Json
  /-- the other fields of its entry -/
  fields : List (String × Json)
  basePrecision : Int
  quotePrecision : Int
  named : (Json.object fields).value Json.getString "symbol" "" = .ok symbol
  trading : (Json.object fields).value Json.getString "status" "" = .ok "TRADING"
  base : (Json.object fields).value Json.getInt "baseAssetPrecision" 8 = .ok basePrecision
  quote : (Json.object fields).value Json.getInt "quoteAssetPrecision" 8 = .ok quotePrecision
  earlier : ∀ item ∈ before, ∃ name, item.value Json.getString "symbol" "" = .ok name ∧ name ≠ symbol

namespace Listing

variable {symbol : String} (e : Listing symbol) {filters filters' : List Json}

/-- The entry with these filters. -/
def entry (filters : List Json) : Json := .object (("filters", .array filters) :: e.fields)

def info (filters : List Json) : Json :=
  .object (("symbols", .array (e.before ++ e.entry filters :: e.after)) :: e.others)

def rules (filters : List Json) : Except String ExchangeRules := fromExchangeInfo (e.info filters) symbol

theorem value_entry {α : Type} (get : Json → Except String α) {key : String} (fallback : α)
    (h : key ≠ "filters") :
    (e.entry filters).value get key fallback = (Json.object e.fields).value get key fallback := by
  have hne : (key == "filters") = false := beq_false_of_ne h
  unfold entry Json.value
  dsimp only
  rw [List.lookup_cons, hne]

/-- What is published of readable filters. -/
theorem rules_eq (h : ∀ filter ∈ filters, Readable filter) : e.rules filters =
    if (lots filters).stepSize ≤ 0 then .error "Exchange did not provide a usable quantity step"
    else .ok (rulesOf e.basePrecision e.quotePrecision filters) := by
  have hread : readRules (e.entry filters) = .ok (rulesOf e.basePrecision e.quotePrecision filters) := by
    have hfilters : (e.entry filters).entry "filters" = .ok (.array filters) := rfl
    unfold readRules
    rw [e.value_entry Json.getInt 8 (by decide), e.value_entry Json.getInt 8 (by decide), e.base, e.quote,
      hfilters]
    exact (foldlM_readFilter _ h).trans (congrArg _ (foldl_applied _ _ filters))
  have hsymbol : readSymbol (e.entry filters) =
      if (lots filters).stepSize ≤ 0 then .error "Exchange did not provide a usable quantity step"
      else .ok (rulesOf e.basePrecision e.quotePrecision filters) := by
    unfold readSymbol
    rw [e.value_entry Json.getString "" (by decide), e.trading, hread]
    rfl
  have hskip : ∀ before : List Json,
      (∀ item ∈ before, ∃ name, item.value Json.getString "symbol" "" = .ok name ∧ name ≠ symbol) →
        readSymbols symbol (before ++ e.entry filters :: e.after) = readSymbol (e.entry filters) := by
    intro before
    induction before with
    | nil =>
      intro _
      rw [List.nil_append, readSymbols, e.value_entry Json.getString "" (by decide), e.named]
      exact if_neg (not_not_intro rfl)
    | cons item rest ih =>
      intro hearlier
      obtain ⟨name, hname, hne⟩ := hearlier item List.mem_cons_self
      rw [List.cons_append, readSymbols, hname]
      exact (if_pos hne).trans (ih fun i hi => hearlier i (List.mem_cons_of_mem _ hi))
  exact (hskip e.before e.earlier).trans hsymbol

end Listing

/-! ## Which filters bear any order -/

section
variable {filters filters' : List Json} {lot market : Json}

def lotFilter (filters : List Json) : Option Json := find typeOf filters "LOT_SIZE"

def marketFilter (filters : List Json) : Option Json := find typeOf filters "MARKET_LOT_SIZE"

/-- The filter whose step counts: `MARKET_LOT_SIZE` where there is one. -/
def decidingFilter (filters : List Json) : Option Json := (marketFilter filters).or (lotFilter filters)

/-- The conditions under which no order of the filters changes anything. -/
structure OrderFree (filters : List Json) : Prop where
  /-- a market lot without a step is not beside a lot with one -/
  step : ∀ lot ∈ lotFilter filters, ∀ market ∈ marketFilter filters,
    quantityOf market "stepSize" ≤ 0 → quantityOf lot "stepSize" ≤ 0
  /-- where the market lot leaves a limit zero, the lot does too -/
  limits : ∀ lot ∈ lotFilter filters, ∀ market ∈ marketFilter filters, 0 < quantityOf market "stepSize" →
    (quantityOf market "minQty" = 0 → quantityOf lot "minQty" = 0) ∧
      (quantityOf market "maxQty" = 0 → quantityOf lot "maxQty" = 0)
  /-- with both notional filters, they agree -/
  notional : ∀ deciding ∈ decidingFilter filters, 0 < quantityOf deciding "stepSize" →
    ∀ least ∈ find typeOf filters "MIN_NOTIONAL", ∀ range ∈ find typeOf filters "NOTIONAL",
      quantityOf least "minNotional" = quantityOf range "minNotional"

/-- What the lot filters leave, by their order. -/
theorem lots_cases (h : (filters.map typeOf).Nodup) :
    (lotFilter filters = none ∧ marketFilter filters = none ∧ lots filters = {}) ∨
    (∃ lot, lotFilter filters = some lot ∧ marketFilter filters = none ∧ lots filters = lotOf lot) ∨
    (∃ market, lotFilter filters = none ∧ marketFilter filters = some market ∧ lots filters = lotOf market) ∨
    (∃ lot market, lotFilter filters = some lot ∧ marketFilter filters = some market ∧
      (lots filters = lotOf market ∨ lots filters = (lotOf market).orElse (lotOf lot))) := by
  have hpair : filters.filter isLot = (lotFilter filters).toList ++ (marketFilter filters).toList ∨
      filters.filter isLot = (marketFilter filters).toList ++ (lotFilter filters).toList :=
    filter_pair h (by decide)
  unfold lots
  cases hlot : lotFilter filters with
  | none =>
    cases hmarket : marketFilter filters with
    | none =>
      rw [hlot, hmarket] at hpair
      rcases hpair with hpair | hpair <;> rw [hpair] <;> exact .inl ⟨rfl, rfl, rfl⟩
    | some market =>
      have htype : typeOf market = "MARKET_LOT_SIZE" := (find_mem hmarket).2
      have hstep : lotStep {} market = lotOf market := if_pos htype
      rw [hlot, hmarket] at hpair
      rcases hpair with hpair | hpair <;> rw [hpair] <;>
        exact .inr (.inr (.inl ⟨market, rfl, rfl, hstep⟩))
  | some lot =>
    have htype : typeOf lot = "LOT_SIZE" := (find_mem hlot).2
    have hother : ∀ set, lotStep set lot = set.orElse (lotOf lot) :=
      fun set => if_neg (by rw [htype]; decide)
    cases hmarket : marketFilter filters with
    | none =>
      have hstep : lotStep {} lot = lotOf lot := (hother {}).trans (LotSize.zero_orElse _)
      rw [hlot, hmarket] at hpair
      rcases hpair with hpair | hpair <;> rw [hpair] <;> exact .inr (.inl ⟨lot, rfl, rfl, hstep⟩)
    | some market =>
      have htype : typeOf market = "MARKET_LOT_SIZE" := (find_mem hmarket).2
      have hmarketStep : ∀ set, lotStep set market = lotOf market := fun set => if_pos htype
      rw [hlot, hmarket] at hpair
      rcases hpair with hpair | hpair <;> rw [hpair]
      · exact .inr (.inr (.inr ⟨lot, market, rfl, rfl, .inl (hmarketStep _)⟩))
      · refine .inr (.inr (.inr ⟨lot, market, rfl, rfl, .inr ?_⟩))
        calc lotStep (lotStep {} market) lot = (lotStep {} market).orElse (lotOf lot) := hother _
          _ = (lotOf market).orElse (lotOf lot) := by rw [hmarketStep]

/-- A positive step of the deciding filter is the step. -/
theorem lots_step (h : (filters.map typeOf).Nodup) {deciding : Json}
    (hdeciding : decidingFilter filters = some deciding) (hpos : 0 < quantityOf deciding "stepSize") :
    (lots filters).stepSize = quantityOf deciding "stepSize" := by
  unfold decidingFilter at hdeciding
  obtain ⟨hlot, hmarket, -⟩ | ⟨lot, hlot, hmarket, hlots⟩ | ⟨market, hlot, hmarket, hlots⟩ |
      ⟨lot, market, hlot, hmarket, hlots⟩ := lots_cases h <;> rw [hlot, hmarket] at hdeciding <;>
    cases hdeciding
  · rw [hlots]; rfl
  · rw [hlots]; rfl
  · rcases hlots with hlots | hlots <;> rw [hlots]
    · rfl
    · exact if_neg hpos.ne'

/-- Under the conditions the lots are those of the deciding filter, or there is no step. -/
theorem OrderFree.lots (hone : (filters.map typeOf).Nodup) (h : OrderFree filters) :
    (∃ deciding, decidingFilter filters = some deciding ∧ 0 < quantityOf deciding "stepSize" ∧
      ExchangeRules.lots filters = lotOf deciding) ∨
    ((∀ deciding ∈ decidingFilter filters, quantityOf deciding "stepSize" ≤ 0) ∧
      (ExchangeRules.lots filters).stepSize ≤ 0) := by
  unfold decidingFilter
  obtain ⟨hlot, hmarket, hlots⟩ | ⟨lot, hlot, hmarket, hlots⟩ | ⟨market, hlot, hmarket, hlots⟩ |
      ⟨lot, market, hlot, hmarket, hlots⟩ := lots_cases hone
  · rw [hlot, hmarket, hlots]
    exact .inr ⟨fun d hd => (by cases hd), le_refl _⟩
  · rw [hlot, hmarket, hlots]
    rcases lt_or_ge 0 (quantityOf lot "stepSize") with hpos | hle
    · exact .inl ⟨lot, rfl, hpos, rfl⟩
    · exact .inr ⟨fun d hd => (by cases hd; exact hle), hle⟩
  · rw [hlot, hmarket, hlots]
    rcases lt_or_ge 0 (quantityOf market "stepSize") with hpos | hle
    · exact .inl ⟨market, rfl, hpos, rfl⟩
    · exact .inr ⟨fun d hd => (by cases hd; exact hle), hle⟩
  · have hstep := h.step lot hlot market hmarket
    have hlimits := h.limits lot hlot market hmarket
    rw [hlot, hmarket]
    rcases lt_or_ge 0 (quantityOf market "stepSize") with hpos | hle
    · obtain ⟨hmin, hmax⟩ := hlimits hpos
      refine .inl ⟨market, rfl, hpos, ?_⟩
      rcases hlots with hlots | hlots
      · exact hlots
      · rw [hlots]
        exact (LotSize.orElse_eq_self_iff _ _).mpr ⟨hmin, hmax, fun h0 => absurd h0 hpos.ne'⟩
    · refine .inr ⟨fun d hd => (by cases hd; exact hle), ?_⟩
      rcases hlots with hlots | hlots <;> rw [hlots]
      · exact hle
      · show (if quantityOf market "stepSize" = 0 then quantityOf lot "stepSize"
          else quantityOf market "stepSize") ≤ 0
        split
        · exact hstep hle
        · exact hle

theorem lotFilter_perm (hone : (filters.map typeOf).Nodup) (hperm : filters'.Perm filters) :
    lotFilter filters' = lotFilter filters :=
  find_perm hone hperm

theorem marketFilter_perm (hone : (filters.map typeOf).Nodup) (hperm : filters'.Perm filters) :
    marketFilter filters' = marketFilter filters :=
  find_perm hone hperm

theorem decidingFilter_perm (hone : (filters.map typeOf).Nodup) (hperm : filters'.Perm filters) :
    decidingFilter filters' = decidingFilter filters := by
  unfold decidingFilter
  rw [lotFilter_perm hone hperm, marketFilter_perm hone hperm]

theorem OrderFree.perm (hone : (filters.map typeOf).Nodup) (hperm : filters'.Perm filters)
    (h : OrderFree filters) : OrderFree filters' := by
  obtain ⟨hstep, hlimits, hnotional⟩ := h
  refine ⟨?_, ?_, ?_⟩
  · rw [lotFilter_perm hone hperm, marketFilter_perm hone hperm]
    exact hstep
  · rw [lotFilter_perm hone hperm, marketFilter_perm hone hperm]
    exact hlimits
  · rw [decidingFilter_perm hone hperm, find_perm hone hperm, find_perm hone hperm]
    exact hnotional

/-- Notional filters that agree, in any order. -/
theorem notional_eq (hone : (filters.map typeOf).Nodup)
    (h : ∀ least ∈ find typeOf filters "MIN_NOTIONAL", ∀ range ∈ find typeOf filters "NOTIONAL",
      quantityOf least "minNotional" = quantityOf range "minNotional") :
    notional filters = ((find typeOf filters "NOTIONAL").or (find typeOf filters "MIN_NOTIONAL")).elim 0
      (quantityOf · "minNotional") := by
  have hpair : filters.filter isNotional = (find typeOf filters "MIN_NOTIONAL").toList ++
      (find typeOf filters "NOTIONAL").toList ∨ filters.filter isNotional =
      (find typeOf filters "NOTIONAL").toList ++ (find typeOf filters "MIN_NOTIONAL").toList :=
    filter_pair hone (by decide)
  unfold notional
  cases hleast : find typeOf filters "MIN_NOTIONAL" with
  | none =>
    rw [hleast] at hpair
    cases hrange : find typeOf filters "NOTIONAL" <;> rw [hrange] at hpair <;>
      rcases hpair with hpair | hpair <;> rw [hpair] <;> rfl
  | some least =>
    rw [hleast] at hpair
    cases hrange : find typeOf filters "NOTIONAL" with
    | none =>
      rw [hrange] at hpair
      rcases hpair with hpair | hpair <;> rw [hpair] <;> rfl
    | some range =>
      rw [hrange] at hpair
      rcases hpair with hpair | hpair <;> rw [hpair]
      · rfl
      · exact h least hleast range hrange

theorem OrderFree.notional_perm (hone : (filters.map typeOf).Nodup) (hperm : filters'.Perm filters)
    (h : OrderFree filters) {deciding : Json} (hdeciding : decidingFilter filters = some deciding)
    (hpos : 0 < quantityOf deciding "stepSize") :
    ExchangeRules.notional filters' = ExchangeRules.notional filters := by
  have hone' : (filters'.map typeOf).Nodup := (hperm.map typeOf).nodup_iff.mpr hone
  have hagree := h.notional deciding hdeciding hpos
  have hagree' := (h.perm hone hperm).notional deciding ((decidingFilter_perm hone hperm).trans hdeciding) hpos
  rw [notional_eq hone hagree, notional_eq hone' hagree', find_perm hone hperm, find_perm hone hperm]

/-- The lot filters come in either order. -/
theorem exists_perm_lots (hone : (filters.map typeOf).Nodup) (hlot : lotFilter filters = some lot)
    (hmarket : marketFilter filters = some market) :
    ∃ filters₁ filters₂ : List Json, filters₁.Perm filters ∧ filters₂.Perm filters ∧
      lots filters₁ = lotOf market ∧ lots filters₂ = (lotOf market).orElse (lotOf lot) := by
  obtain ⟨rest, hperm, hrest⟩ := exists_perm_pair hone (by decide) hlot hmarket
  have hnone : rest.filter isLot = [] := by
    refine List.filter_eq_nil_iff.mpr fun f hf his => ?_
    have htype : typeOf f = "LOT_SIZE" ∨ typeOf f = "MARKET_LOT_SIZE" := of_decide_eq_true his
    exact htype.elim (hrest f hf).1 (hrest f hf).2
  have hlotType : typeOf lot = "LOT_SIZE" := (find_mem hlot).2
  have hmarketType : typeOf market = "MARKET_LOT_SIZE" := (find_mem hmarket).2
  have hisLot : isLot lot = true := decide_eq_true (.inl hlotType)
  have hisMarket : isLot market = true := decide_eq_true (.inr hmarketType)
  have hother : ∀ set, lotStep set lot = set.orElse (lotOf lot) :=
    fun set => if_neg (by rw [hlotType]; decide)
  have hmarketStep : ∀ set, lotStep set market = lotOf market := fun set => if_pos hmarketType
  refine ⟨lot :: market :: rest, market :: lot :: rest, hperm,
    (List.Perm.swap lot market rest).trans hperm, ?_, ?_⟩
  · unfold lots
    rw [List.filter_cons_of_pos hisLot, List.filter_cons_of_pos hisMarket, hnone]
    exact hmarketStep _
  · unfold lots
    rw [List.filter_cons_of_pos hisMarket, List.filter_cons_of_pos hisLot, hnone]
    calc lotStep (lotStep {} market) lot = (lotStep {} market).orElse (lotOf lot) := hother _
      _ = (lotOf market).orElse (lotOf lot) := by rw [hmarketStep]

/-- The notional filters come in either order. -/
theorem exists_perm_notionals {least range : Json} (hone : (filters.map typeOf).Nodup)
    (hleast : find typeOf filters "MIN_NOTIONAL" = some least)
    (hrange : find typeOf filters "NOTIONAL" = some range) :
    ∃ filters₁ filters₂ : List Json, filters₁.Perm filters ∧ filters₂.Perm filters ∧
      notional filters₁ = quantityOf range "minNotional" ∧
      notional filters₂ = quantityOf least "minNotional" := by
  obtain ⟨rest, hperm, hrest⟩ := exists_perm_pair hone (by decide) hleast hrange
  have hnone : rest.filter isNotional = [] := by
    refine List.filter_eq_nil_iff.mpr fun f hf his => ?_
    have htype : typeOf f = "MIN_NOTIONAL" ∨ typeOf f = "NOTIONAL" := of_decide_eq_true his
    exact htype.elim (hrest f hf).1 (hrest f hf).2
  have hisLeast : isNotional least = true := decide_eq_true (.inl (find_mem hleast).2)
  have hisRange : isNotional range = true := decide_eq_true (.inr (find_mem hrange).2)
  refine ⟨least :: range :: rest, range :: least :: rest, hperm,
    (List.Perm.swap least range rest).trans hperm, ?_, ?_⟩ <;> unfold notional
  · rw [List.filter_cons_of_pos hisLeast, List.filter_cons_of_pos hisRange, hnone]
    rfl
  · rw [List.filter_cons_of_pos hisRange, List.filter_cons_of_pos hisLeast, hnone]
    rfl

namespace Listing

variable {symbol : String} (e : Listing symbol)

/-- What is claimed of the filters: their order changes nothing, and a lot
with a step is enough. -/
structure OrderIrrelevant (filters : List Json) : Prop where
  same : ∀ filters', filters'.Perm filters → e.rules filters' = e.rules filters
  usable : ∀ lot ∈ lotFilter filters, 0 < quantityOf lot "stepSize" → ∃ rules, e.rules filters = .ok rules

theorem rules_ok (h : ∀ filter ∈ filters, Readable filter) (hpos : 0 < (lots filters).stepSize) :
    e.rules filters = .ok (rulesOf e.basePrecision e.quotePrecision filters) := by
  rw [e.rules_eq h, if_neg (not_le.mpr hpos)]

theorem orderIrrelevant_of_orderFree (h : ∀ filter ∈ filters, Readable filter) (hone : (filters.map typeOf).Nodup)
    (hfree : OrderFree filters) : e.OrderIrrelevant filters := by
  refine ⟨fun filters' hperm => ?_, fun lot hlot hpos => ?_⟩
  · have hread' : ∀ filter ∈ filters', Readable filter := fun f hf => h f (hperm.mem_iff.mp hf)
    have hone' : (filters'.map typeOf).Nodup := (hperm.map typeOf).nodup_iff.mpr hone
    have hlots' := (hfree.perm hone hperm).lots hone'
    rw [decidingFilter_perm hone hperm] at hlots'
    obtain ⟨d, hd, hpos, hlots⟩ | ⟨hnone, hle⟩ := hfree.lots hone
    · obtain ⟨d', hd', -, hlots'⟩ | ⟨hnone, -⟩ := hlots'
      · cases hd.symm.trans hd'
        have hpos' : 0 < (lots filters).stepSize := by rw [hlots]; exact hpos
        have heq : lots filters' = lots filters := hlots'.trans hlots.symm
        rw [e.rules_ok h hpos', e.rules_ok hread' (heq ▸ hpos')]
        unfold rulesOf
        rw [heq, hfree.notional_perm hone hperm hd hpos]
      · exact absurd hpos (not_lt.mpr (hnone d hd))
    · obtain ⟨d', hd', hpos, -⟩ | ⟨-, hle'⟩ := hlots'
      · exact absurd hpos (not_lt.mpr (hnone d' hd'))
      · rw [e.rules_eq h, e.rules_eq hread', if_pos hle, if_pos hle']
  · obtain ⟨d, hd, hpos', hlots⟩ | ⟨hnone, -⟩ := hfree.lots hone
    · have hstep : 0 < (lots filters).stepSize := by rw [hlots]; exact hpos'
      exact ⟨_, e.rules_ok h hstep⟩
    · -- the deciding filter has no step: it is not the lot, so it is the market lot
      unfold decidingFilter at hnone
      cases hmarket : marketFilter filters with
      | none =>
        rw [hmarket, hlot] at hnone
        exact absurd hpos (not_lt.mpr (hnone lot rfl))
      | some market =>
        rw [hmarket] at hnone
        exact absurd hpos (not_lt.mpr (hfree.step lot hlot market hmarket (hnone market rfl)))

theorem orderFree_of_orderIrrelevant (h : ∀ filter ∈ filters, Readable filter) (hone : (filters.map typeOf).Nodup)
    (hsame : e.OrderIrrelevant filters) : OrderFree filters := by
  have hread : ∀ {filters' : List Json}, filters'.Perm filters → ∀ filter ∈ filters', Readable filter :=
    fun hperm f hf => h f (hperm.mem_iff.mp hf)
  refine ⟨fun lot hlot market hmarket hle => ?_, fun lot hlot market hmarket hpos => ?_, ?_⟩
  · obtain ⟨filters₁, -, hperm, -, hlots, -⟩ := exists_perm_lots hone hlot hmarket
    by_contra hpos
    obtain ⟨rules, hrules⟩ := hsame.usable lot hlot (not_le.mp hpos)
    have hstep : (lots filters₁).stepSize ≤ 0 := by rw [hlots]; exact hle
    rw [← hsame.same _ hperm, e.rules_eq (hread hperm), if_pos hstep] at hrules
    cases hrules
  · obtain ⟨filters₁, filters₂, hperm₁, hperm₂, hlots₁, hlots₂⟩ := exists_perm_lots hone hlot hmarket
    have hpos₁ : 0 < (lots filters₁).stepSize := by rw [hlots₁]; exact hpos
    have hpos₂ : 0 < (lots filters₂).stepSize := by
      have hstep : (lots filters₂).stepSize = quantityOf market "stepSize" := by
        rw [hlots₂]
        exact if_neg hpos.ne'
      rw [hstep]
      exact hpos
    have heq := (hsame.same _ hperm₁).trans (hsame.same _ hperm₂).symm
    rw [e.rules_ok (hread hperm₁) hpos₁, e.rules_ok (hread hperm₂) hpos₂] at heq
    have heq := congrArg lotSize (Except.ok.inj heq)
    have heq : lotOf market = (lotOf market).orElse (lotOf lot) := hlots₁.symm.trans (heq.trans hlots₂)
    obtain ⟨hmin, hmax, -⟩ := (LotSize.orElse_eq_self_iff _ _).mp heq.symm
    exact ⟨hmin, hmax⟩
  · intro deciding hdeciding hpos least hleast range hrange
    obtain ⟨filters₁, filters₂, hperm₁, hperm₂, hnotional₁, hnotional₂⟩ :=
      exists_perm_notionals hone hleast hrange
    have hstep : ∀ {filters' : List Json}, filters'.Perm filters → 0 < (lots filters').stepSize := by
      intro filters' hperm
      rw [lots_step ((hperm.map typeOf).nodup_iff.mpr hone) ((decidingFilter_perm hone hperm).trans hdeciding) hpos]
      exact hpos
    have heq := (hsame.same _ hperm₂).trans (hsame.same _ hperm₁).symm
    rw [e.rules_ok (hread hperm₂) (hstep hperm₂), e.rules_ok (hread hperm₁) (hstep hperm₁)] at heq
    have heq : notional filters₂ = notional filters₁ := congrArg minNotional (Except.ok.inj heq)
    rw [← hnotional₁, ← hnotional₂, heq]

/-- **The order of the filters** changes nothing, and a lot with a step is
enough, exactly under the conditions. -/
theorem orderIrrelevant_iff (h : ∀ filter ∈ filters, Readable filter) (hone : (filters.map typeOf).Nodup) :
    e.OrderIrrelevant filters ↔ OrderFree filters :=
  ⟨e.orderFree_of_orderIrrelevant h hone, e.orderIrrelevant_of_orderFree h hone⟩

/-- An answer that lists one symbol. -/
def btcusdt : Listing "BTCUSDT" where
  others := []
  before := []
  after := []
  fields := [("symbol", .string "BTCUSDT"), ("status", .string "TRADING"),
    ("baseAssetPrecision", .integer 8), ("quoteAssetPrecision", .integer 8)]
  basePrecision := 8
  quotePrecision := 8
  named := rfl
  trading := rfl
  base := rfl
  quote := rfl
  earlier := fun _ h => nomatch h

def lotFilterOf (type minQty maxQty stepSize : String) : Json :=
  .object [("filterType", .string type), ("minQty", .string minQty), ("maxQty", .string maxQty),
    ("stepSize", .string stepSize)]

theorem readable_iff (filter : Json) : Readable filter ↔
    filter.value Json.getString "filterType" "" = .ok (typeOf filter) ∧
      ∀ key ∈ keysOf (typeOf filter), parse filter key = .ok (quantityOf filter key) :=
  ⟨fun h => ⟨h.type, h.quantities⟩, fun h => ⟨h.1, h.2⟩⟩

instance (filter : Json) : Decidable (Readable filter) := decidable_of_iff _ (readable_iff filter).symm

/-- A market lot with limits and a step of its own. -/
def ownStep : List Json :=
  [lotFilterOf "LOT_SIZE" "0.00001" "9000" "0.00001", lotFilterOf "MARKET_LOT_SIZE" "0.0001" "100" "0.0001"]

theorem orderIrrelevant_iff_ownStep : (∀ filter ∈ ownStep, Readable filter) ∧ (ownStep.map typeOf).Nodup ∧
    (btcusdt.OrderIrrelevant ownStep ↔ OrderFree ownStep) := by
  have hread : ∀ filter ∈ ownStep, Readable filter := by decide +kernel
  have hone : (ownStep.map typeOf).Nodup := by decide
  exact ⟨hread, hone, btcusdt.orderIrrelevant_iff hread hone⟩

/-- A market lot that leaves the step open, as the exchange publishes it. -/
def openStep : List Json :=
  [lotFilterOf "LOT_SIZE" "0.00001000" "9000.00000000" "0.00001000",
    lotFilterOf "MARKET_LOT_SIZE" "0.00000000" "100.00000000" "0.00000000"]

/-- After `LOT_SIZE` it takes the step away, before it it does not. -/
theorem openStep_not_orderIrrelevant : (∀ filter ∈ openStep, Readable filter) ∧ (openStep.map typeOf).Nodup ∧
    btcusdt.rules openStep = .error "Exchange did not provide a usable quantity step" ∧
    btcusdt.rules openStep.reverse =
      .ok { minQuantity := 1 / 100000, maxQuantity := 100, stepSize := 1 / 100000 } ∧
    ¬ btcusdt.OrderIrrelevant openStep := by
  have herror : btcusdt.rules openStep = .error "Exchange did not provide a usable quantity step" := by
    decide +kernel
  have hlot : lotFilter openStep =
      some (lotFilterOf "LOT_SIZE" "0.00001000" "9000.00000000" "0.00001000") := rfl
  have hpos : 0 < quantityOf (lotFilterOf "LOT_SIZE" "0.00001000" "9000.00000000" "0.00001000") "stepSize" := by
    decide +kernel
  refine ⟨by decide +kernel, by decide, herror, by decide +kernel, fun h => ?_⟩
  obtain ⟨rules, hrules⟩ := h.usable _ hlot hpos
  rw [herror] at hrules
  cases hrules

end Listing

end

end Sentum.Execution.ExchangeRules
