import Sentum.Collector.Collector
import Sentum.Collector.FastBinanceKlineParser
import Sentum.Collector.SymbolLookup
import Sentum.Scanner.TopPerformers

/-!
# From messages to leaders

The message handler of the collector parses a message, looks its symbol up and
stores the candle under the symbol's id; a closed candle is published, and the
scanner asks the store for the symbol's returns.  `init_components` gives all
three the same store.

    leaders_of_messages : what the store and the scanner answer after any messages
                          is what the texts of the messages say

What the texts say is written without ids, hashes, buffers and caches: the
candles of each symbol, and the return over the last of them.
-/

namespace Sentum.Collector

open Sentum.Std Market MarketDataStore Scanner Run

/-! ## Algorithm -/

/-- What the message handler and the scanner work on. -/
structure Feed where
  symbols : Symbols
  scanner : SymbolScanner

/-- `init_components`: the store, the collector and the scanner -/
def Feed.start (capacity : Nat) (markets : List String) (minCumulativeReturn : ℚ) : Feed :=
  { symbols := initializeSymbols { capacityPerSymbol := capacity } markets
    scanner := { minReturnThreshold := minCumulativeReturn } }

/-- The `entry` of the handler. -/
def entryOf (parsed : ParsedKline) : Kline :=
  { timestamp := parsed.timestamp, open_ := parsed.open_, high := parsed.high, low := parsed.low,
    close := parsed.close, volume := parsed.volume }

/-- The message the handler goes on with; it returns at a payload that is not
parsed and at a symbol that is not found. -/
def messageOf (symbols : Symbols) (payload : List Char) : Option Message :=
  match FastBinanceKlineParser.parse payload {} with
  | (false, _) => none
  | (true, parsed) =>
    let symbol := resolveSymbol symbols (String.ofList parsed.symbol)
    symbol.canonical.map fun canonical =>
      { id := symbol.id, symbol := canonical, kline := entryOf parsed, closed := parsed.closed }

/-- The question of `update_cache`. -/
def askReturn (store : MarketDataStore) (m : Message) (lookback : Nat) : Option ℚ :=
  if m.id ≠ kInvalidSymbolId then store.cumulativeReturnId m.id lookback
  else store.cumulativeReturn m.symbol lookback

/-- A message, and the order in which the scanner walks its cache. -/
structure Received where
  payload : List Char
  walk : Cache := []

/-- The message handler; the scanner is called from `publish`. -/
def receive (f : Feed) (r : Received) : Feed :=
  match messageOf f.symbols r.payload with
  | none => f
  | some m =>
    let store := f.symbols.store.upsertId m.id m.kline
    { symbols := { f.symbols with store }
      scanner :=
        if m.closed then
          hear f.scanner
            { event := m.event, answer30 := askReturn store m 30, answer60 := askReturn store m 60, walk := r.walk }
        else f.scanner }

/-! ## What the messages say -/

/-- A candle of one of the markets. -/
structure Tick where
  symbol : String
  kline : Kline
  closed : Bool

def tickOf (markets : List String) (payload : List Char) : Option Tick :=
  match FastBinanceKlineParser.parse payload {} with
  | (false, _) => none
  | (true, parsed) =>
    let symbol := toLowercase (String.ofList parsed.symbol)
    if symbol ∈ markets.map toLowercase then some { symbol, kline := entryOf parsed, closed := parsed.closed }
    else none

/-- The ticks of the messages, the newest first. -/
def ticks (markets : List String) (messages : List Received) : List Tick :=
  (messages.filterMap fun r => tickOf markets r.payload).reverse

/-- The candles of a symbol, of which a store of this capacity keeps the last. -/
def candles (capacity : Nat) (symbol : String) : List Tick → List Kline
  | [] => []
  | tick :: before =>
    if tick.symbol = symbol then CandleLists.insert capacity (candles capacity symbol before) tick.kline
    else candles capacity symbol before

/-- The rounded return over the last candles, when a candle of the symbol closed
last and there was a return. -/
def lastReturn (capacity lookback : Nat) (symbol : String) : List Tick → Option ℚ
  | [] => none
  | tick :: before =>
    if tick.symbol = symbol && tick.closed then
      ((CandleLists.returnOf ((candles capacity symbol (tick :: before)).rtake lookback)).map roundReturn).or
        (lastReturn capacity lookback symbol before)
    else lastReturn capacity lookback symbol before

/-- How many candles the cache of a lookback is about. -/
def window (lookback : Int) : Nat := if lookback ≤ 30 then 30 else 60

/-! ## The invariant -/

/-- The store holds the candles of the ticks, and every market's id leads to them. -/
structure Stores (capacity : Nat) (markets : List String) (seen : List Tick) (store : MarketDataStore)
    (lists : CandleLists) : Prop extends Refines capacity store lists where
  list_eq : ∀ symbol, lists.list symbol = candles capacity symbol seen
  symbolOf : ∀ i m, markets[i]? = some m → lists.symbolOf (i + 1) = some (toLowercase m)

/-- A cache holds the returns of the ticks. -/
structure Caches (capacity lookback : Nat) (seen : List Tick) (updates cache : Cache) : Prop
    extends Scanner.Kept updates cache where
  return_eq : ∀ symbol, symbol ≠ "" →
    (LastPerKey.last Prod.fst updates symbol).map Prod.snd = lastReturn capacity lookback symbol seen

/-- **Invariant.** -/
structure Follows (capacity : Nat) (markets : List String) (threshold : ℚ) (seen : List Tick) (f : Feed) :
    Prop where
  table : ∀ query, resolveSymbol f.symbols query =
    resolveSymbol (initializeSymbols { capacityPerSymbol := capacity } markets) query
  stores : ∃ lists, Stores capacity markets seen f.symbols.store lists
  caches : ∀ lookback, ∃ updates, Caches capacity (window lookback) seen updates (f.scanner.cache lookback)
  threshold_eq : f.scanner.minReturnThreshold = threshold

variable {capacity : Nat} {markets : List String} {threshold : ℚ} {seen : List Tick} {f : Feed}

/-! ## The start -/

/-- **Run lemma** of `initialize_symbols`: the store has the markets, and no candles. -/
theorem stores_start (capacity : Nat) (hlen : markets.length < 2 ^ 32) :
    ∃ lists,
      Stores capacity markets [] (initializeSymbols { capacityPerSymbol := capacity } markets).store lists := by
  induction markets using List.reverseRecOn with
  | nil => exact ⟨{}, refines_init capacity, fun _ => rfl, fun _ _ hm => nomatch hm⟩
  | append_singleton markets symbol ih =>
    rw [List.length_append, List.length_singleton] at hlen
    obtain ⟨lists, hlists⟩ := ih (by omega)
    have hlength : (initializeSymbols { capacityPerSymbol := capacity } markets).canonicalSymbols.length =
        markets.length := by
      rw [canonicalSymbols_eq, List.length_map]
    have hid : symbolId markets.length = markets.length + 1 := Nat.mod_eq_of_lt hlen
    rw [initializeSymbols_concat]
    unfold addSymbol
    dsimp only
    rw [hlength, hid]
    refine ⟨_, hlists.toRefines.registerSymbol (markets.length + 1) (toLowercase symbol), ?_, ?_⟩
    · intro s
      rw [← hlists.list_eq s]
      rfl
    · intro i m hm
      show Function.update lists.symbolOf (markets.length + 1) (some (toLowercase symbol)) (i + 1) = _
      by_cases hi : i < markets.length
      · rw [List.getElem?_append_left hi] at hm
        rw [Function.update_of_ne (by omega)]
        exact hlists.symbolOf i m hm
      · have hbound : i < (markets ++ [symbol]).length := (List.getElem?_eq_some_iff.mp hm).1
        rw [List.length_append, List.length_singleton] at hbound
        obtain rfl : i = markets.length := by omega
        rw [List.getElem?_concat_length] at hm
        rw [Function.update_self, Option.some.inj hm]

theorem follows_start (capacity : Nat) (hlen : markets.length < 2 ^ 32) (threshold : ℚ) :
    Follows capacity markets threshold [] (Feed.start capacity markets threshold) where
  table := fun _ => rfl
  stores := stores_start capacity hlen
  caches := fun lookback => by
    have hempty : (Feed.start capacity markets threshold).scanner.cache lookback = [] := by
      unfold SymbolScanner.cache
      split <;> rfl
    rw [hempty]
    exact ⟨[], kept_nil, fun _ _ => rfl⟩
  threshold_eq := rfl

/-! ## A message -/

/-- The handler goes on with the tick of the message, under the id of its market. -/
theorem messageOf_eq (hlen : markets.length < 2 ^ 32) (hdistinct : (markets.map toLowercase).Nodup)
    (hcollision : ∀ m ∈ markets, ∀ m' ∈ markets, symbolHash m = symbolHash m' → m = m')
    (h : Follows capacity markets threshold seen f) (payload : List Char) :
    (messageOf f.symbols payload = none ∧ tickOf markets payload = none) ∨
      ∃ i m tick, markets[i]? = some m ∧ toLowercase m = tick.symbol ∧ tickOf markets payload = some tick ∧
        messageOf f.symbols payload =
          some { id := i + 1, symbol := tick.symbol, kline := tick.kline, closed := tick.closed } := by
  unfold messageOf tickOf
  rcases FastBinanceKlineParser.parse payload {} with ⟨accepted, parsed⟩
  cases accepted with
  | false => exact Or.inl ⟨rfl, rfl⟩
  | true =>
    dsimp only
    rw [h.table]
    by_cases hlisted : toLowercase (String.ofList parsed.symbol) ∈ markets.map toLowercase
    · right
      obtain ⟨m, hm, hsymbol⟩ := List.mem_map.mp hlisted
      obtain ⟨i, hi, rfl⟩ := List.getElem_of_mem hm
      have hid : symbolId i = i + 1 := Nat.mod_eq_of_lt (by omega)
      rw [resolve_listed _ hdistinct hcollision hi hsymbol, if_pos hlisted, hid]
      refine ⟨i, markets[i], _, List.getElem?_eq_getElem hi, hsymbol, rfl, ?_⟩
      rw [← hsymbol]
      rfl
    · left
      have hunlisted : ∀ m ∈ markets, toLowercase m ≠ toLowercase (String.ofList parsed.symbol) := by
        intro m hm heq
        exact hlisted (List.mem_map.mpr ⟨m, hm, heq⟩)
      rw [resolve_unlisted _ hunlisted, if_neg hlisted]
      exact ⟨rfl, rfl⟩

section
variable {lists : CandleLists} {store : MarketDataStore} {tick : Tick} {i : Nat} {m : String}

/-- **Step lemma** of the store. -/
theorem Stores.upsert (h : Stores capacity markets seen store lists) (hc : 0 < capacity) (hm : markets[i]? = some m)
    (hsymbol : toLowercase m = tick.symbol) :
    Stores capacity markets (tick :: seen) (store.upsertId (i + 1) tick.kline)
      (lists.upsert capacity tick.symbol tick.kline) := by
  have hid : lists.symbolOf (i + 1) = some tick.symbol := (h.symbolOf i m hm).trans (congrArg some hsymbol)
  have hrefines := h.toRefines.upsertId hc (i + 1) tick.kline
  unfold CandleLists.apply at hrefines
  dsimp only at hrefines
  rw [hid] at hrefines
  refine ⟨hrefines, ?_, h.symbolOf⟩
  intro symbol
  unfold CandleLists.upsert
  rw [candles]
  dsimp only
  by_cases heq : tick.symbol = symbol
  · rw [heq, Function.update_self, if_pos rfl, h.list_eq]
  · rw [Function.update_of_ne (Ne.symm heq), if_neg heq, h.list_eq]

/-- What the scanner is told is the return over the symbol's last candles. -/
theorem Stores.askReturn_eq (h : Stores capacity markets seen store lists) (hm : markets[i]? = some m)
    (message : Message) (hid : message.id = i + 1) (lookback : Nat) : askReturn store message lookback =
      CandleLists.returnOf ((candles capacity (toLowercase m) seen).rtake lookback) := by
  unfold askReturn
  have hvalid : message.id ≠ kInvalidSymbolId := by
    rw [hid]
    exact Nat.succ_ne_zero i
  rw [if_pos hvalid, hid, h.cumulativeReturnId, h.latestId]
  unfold CandleLists.listOfId
  rw [h.symbolOf i m hm]
  dsimp only
  rw [h.list_eq]

end

/-- A tick that does not close its candle changes no return. -/
theorem lastReturn_open {capacity lookback : Nat} {symbol : String} {tick : Tick} (h : tick.closed = false) :
    lastReturn capacity lookback symbol (tick :: seen) = lastReturn capacity lookback symbol seen := by
  rw [lastReturn, h, Bool.and_false, if_neg Bool.false_ne_true]

/-- **Step lemma** of a cache. -/
theorem Caches.hear {lookback : Int} {s : SymbolScanner} {updates : Cache} {tick : Tick} {heard : Heard}
    (h : Caches capacity (window lookback) seen updates (s.cache lookback)) (hclosed : tick.closed = true)
    (hevent : heard.event.symbol = tick.symbol ∧ heard.event.closed = true)
    (hanswer : heard.answer lookback =
      CandleLists.returnOf ((candles capacity tick.symbol (tick :: seen)).rtake (window lookback))) :
    Caches capacity (window lookback) (tick :: seen) (updates ++ (heard.update lookback).toList)
      ((hear s heard).cache lookback) := by
  refine ⟨kept_hear h.toKept heard, ?_⟩
  intro symbol hsymbol
  unfold Heard.update
  rw [lastReturn, hevent.1, hevent.2, hclosed, hanswer, Bool.and_true, Bool.not_true, Bool.or_false]
  by_cases heq : tick.symbol = symbol
  · rw [heq, decide_eq_true rfl, if_pos rfl, decide_eq_false hsymbol]
    cases CandleLists.returnOf ((candles capacity symbol (tick :: seen)).rtake (window lookback)) with
    | none =>
      rw [← h.return_eq symbol hsymbol]
      exact congrArg (fun us => (LastPerKey.last Prod.fst us symbol).map Prod.snd) (List.append_nil updates)
    | some value =>
      show (LastPerKey.last Prod.fst (updates ++ [(symbol, roundReturn value)]) symbol).map Prod.snd = _
      rw [LastPerKey.last_snoc, if_pos rfl]
      rfl
  · have hother : decide (tick.symbol = symbol) = false := decide_eq_false heq
    rw [hother, if_neg Bool.false_ne_true, ← h.return_eq symbol hsymbol]
    congr 1
    split
    · rw [Option.toList_none, List.append_nil]
    · cases CandleLists.returnOf ((candles capacity tick.symbol (tick :: seen)).rtake (window lookback)) with
      | none => rw [Option.map_none, Option.toList_none, List.append_nil]
      | some value =>
        show LastPerKey.last Prod.fst (updates ++ [(tick.symbol, roundReturn value)]) symbol = _
        rw [LastPerKey.last_snoc, if_neg heq]

/-- **Step lemma.** -/
theorem Follows.receive (hc : 0 < capacity) (hlen : markets.length < 2 ^ 32)
    (hdistinct : (markets.map toLowercase).Nodup)
    (hcollision : ∀ m ∈ markets, ∀ m' ∈ markets, symbolHash m = symbolHash m' → m = m')
    (h : Follows capacity markets threshold seen f) (r : Received) :
    Follows capacity markets threshold ((tickOf markets r.payload).toList ++ seen) (receive f r) := by
  rcases messageOf_eq hlen hdistinct hcollision h r.payload with
    ⟨hmessage, htick⟩ | ⟨i, m, tick, hm, hsymbol, htick, hmessage⟩
  · unfold Collector.receive
    rw [hmessage, htick]
    exact h
  · unfold Collector.receive
    rw [hmessage, htick]
    obtain ⟨lists, hstores⟩ := h.stores
    have hstores' := hstores.upsert hc hm hsymbol
    have hanswer := hstores'.askReturn_eq hm
      { id := i + 1, symbol := tick.symbol, kline := tick.kline, closed := tick.closed } rfl
    refine ⟨h.table, ⟨_, hstores'⟩, ?_, ?_⟩
    · intro lookback
      obtain ⟨updates, hcaches⟩ := h.caches lookback
      dsimp only
      cases hclosed : tick.closed with
      | false =>
        refine ⟨updates, hcaches.toKept, ?_⟩
        intro symbol hne
        exact (hcaches.return_eq symbol hne).trans (lastReturn_open hclosed).symm
      | true =>
        refine ⟨_, hcaches.hear hclosed ⟨rfl, rfl⟩ ?_⟩
        unfold Heard.answer window
        rw [← hsymbol]
        by_cases hshort : lookback ≤ 30
        · rw [if_pos hshort, if_pos hshort]
          exact hanswer 30
        · rw [if_neg hshort, if_neg hshort]
          exact hanswer 60
    · dsimp only
      split
      · exact (hear_threshold _ _).trans h.threshold_eq
      · exact h.threshold_eq

/-- **Run lemma.** -/
theorem follows_exec (hc : 0 < capacity) (hlen : markets.length < 2 ^ 32)
    (hdistinct : (markets.map toLowercase).Nodup)
    (hcollision : ∀ m ∈ markets, ∀ m' ∈ markets, symbolHash m = symbolHash m' → m = m') (threshold : ℚ)
    (messages : List Received) : Follows capacity markets threshold (ticks markets messages)
      (exec receive (Feed.start capacity markets threshold) messages) := by
  refine exec_history (fun before f => Follows capacity markets threshold (ticks markets before) f)
    (follows_start capacity hlen threshold) (fun before f r h => ?_) messages
  have hsnoc : ticks markets (before ++ [r]) = (tickOf markets r.payload).toList ++ ticks markets before := by
    unfold ticks
    rw [List.filterMap_append, List.reverse_append]
    cases htick : tickOf markets r.payload <;> simp [htick]
  rw [hsnoc]
  exact h.receive hc hlen hdistinct hcollision r

/-- **Main result**: after any messages the store has the candles that their texts
bring to each symbol, and the list of the scanner has distinct symbols, the best
first, each with its return over these candles; a symbol above the threshold that
is not on it found the list full of symbols that are no worse. -/
theorem leaders_of_messages {capacity : Nat} (hc : 0 < capacity) {markets : List String}
    (hlen : markets.length < 2 ^ 32) (hdistinct : (markets.map toLowercase).Nodup)
    (hcollision : ∀ m ∈ markets, ∀ m' ∈ markets, symbolHash m = symbolHash m' → m = m') (threshold : ℚ)
    (messages : List Received) (full : Sorting NotWorse) (part : PartialSorting NotWorse) (lookback maxSymbols : Int)
    (walk : Cache) (hwalk : walk.Perm
      ((exec receive (Feed.start capacity markets threshold) messages).scanner.cache lookback)) :
    let feed := exec receive (Feed.start capacity markets threshold) messages
    let seen := ticks markets messages
    let top := feed.scanner.fetchTopPerformers full part maxSymbols walk
    (∀ symbol limit, feed.symbols.store.latest symbol limit = (candles capacity symbol seen).rtake limit) ∧
      (top.map SymbolPerformance.symbol).Nodup ∧ top.Pairwise NotWorse ∧
      (0 < maxSymbols → top.length ≤ maxSymbols.toNat) ∧
      (∀ p ∈ top, threshold < p.cumReturn ∧
        lastReturn capacity (window lookback) p.symbol seen = some p.cumReturn) ∧
      ∀ symbol value, symbol ≠ "" → lastReturn capacity (window lookback) symbol seen = some value →
        threshold < value → symbol ∉ top.map SymbolPerformance.symbol →
        0 < maxSymbols ∧ top.length = maxSymbols.toNat ∧ ∀ p ∈ top, value ≤ p.cumReturn := by
  dsimp only
  have hfollows := follows_exec hc hlen hdistinct hcollision threshold messages
  obtain ⟨lists, hstores⟩ := hfollows.stores
  obtain ⟨updates, hcaches⟩ := hfollows.caches lookback
  obtain ⟨hnodup, hsorted, hshort, hlisted, hmissing⟩ := hcaches.toKept.list full part maxSymbols hwalk
  rw [hfollows.threshold_eq] at hlisted hmissing
  refine ⟨?_, hnodup, hsorted, hshort, ?_, ?_⟩
  · intro symbol limit
    rw [hstores.latest, hstores.list_eq]
  · intro p hp
    obtain ⟨hnamed, habove, hlast⟩ := hlisted p hp
    refine ⟨habove, ?_⟩
    rw [← hcaches.return_eq p.symbol hnamed, hlast]
    rfl
  · intro symbol value hnamed hreturn habove hout
    rw [← hcaches.return_eq symbol hnamed] at hreturn
    obtain ⟨entry, hlast, rfl⟩ := Option.map_eq_some_iff.mp hreturn
    obtain ⟨-, rfl⟩ := LastPerKey.last_eq_some Prod.fst hlast
    exact hmissing entry hlast habove hout

/-- A closed candle at one price. -/
def flatMessage (symbol time price : String) : Received :=
  { payload := ("\x7b\"k\":\x7b\"t\":" ++ time ++ ",\"s\":\"" ++ symbol ++ "\",\"o\":\"" ++ price ++
      "\",\"h\":\"" ++ price ++ "\",\"l\":\"" ++ price ++ "\",\"c\":\"" ++ price ++
      "\",\"v\":\"1\",\"x\":true\x7d\x7d").toList }

/-- Two candles of each market, and one of a symbol that is no market. -/
def fiveMessages : List Received :=
  [flatMessage "BTCUSDT" "1000" "100", flatMessage "ETHUSDT" "1000" "10.0", flatMessage "XRPUSDT" "1000" "1",
    flatMessage "BTCUSDT" "2000" "102", flatMessage "ETHUSDT" "2000" "10.5"]

theorem leaders_of_messages_five :
    let feed := exec receive (Feed.start 600 ["BTCUSDT", "EthUsdt"] (1 / 100)) fiveMessages
    let top := feed.scanner.fetchTopPerformers Sorting.stable (PartialSorting.ofSorting Sorting.stable) 1
      [("btcusdt", 1 / 50), ("ethusdt", 1 / 20)]
    (feed.symbols.store.latest "ethusdt" 5).map Kline.close = [10, 21 / 2] ∧ top.length ≤ 1 ∧
      ∀ p ∈ top, lastReturn 600 60 p.symbol (ticks ["BTCUSDT", "EthUsdt"] fiveMessages) = some p.cumReturn := by
  have hlen : ["BTCUSDT", "EthUsdt"].length < 2 ^ 32 := by decide
  obtain ⟨hlatest, -, -, hshort, hlisted, -⟩ := leaders_of_messages (by decide : 0 < 600) hlen (by decide +kernel)
    (by decide +kernel) (1 / 100) fiveMessages Sorting.stable (PartialSorting.ofSorting Sorting.stable) 60 1
    [("btcusdt", 1 / 50), ("ethusdt", 1 / 20)] (by decide +kernel)
  refine ⟨?_, hshort (by decide), fun p hp => (hlisted p hp).2⟩
  rw [hlatest]
  decide +kernel

end Sentum.Collector
