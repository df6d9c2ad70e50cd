import Mathlib.Data.List.Induction
import Mathlib.Data.List.Nodup
import Sentum.Market.MarketDataStore
import Sentum.Market.SymbolId

/-!
# The collector's symbols

`initialize_symbols` gives the markets' symbols ids from 1 on, registers them
with the market data store and keeps the index of each under its hash;
`resolve_symbol` looks the hash up and compares the names.  An id has 32 bits, so
the symbol with index `2^32 - 1` gets the id 0, which is no id.

    resolve_listed / resolve_unlisted   for any number of symbols
    addressed                           for fewer than 2^32
-/

namespace Sentum.Collector

open Market MarketDataStore

/-- `helper::to_lowercase` -/
def toLowercase (symbol : String) : String := String.ofList (symbol.toList.map Char.toLower)

/-- `if (c >= 'A' && c <= 'Z') c = c - 'A' + 'a'` -/
def lowerByte (c : Char) : Char := if 65 ≤ c.toNat ∧ c.toNat ≤ 90 then Char.ofNat (c.toNat - 65 + 97) else c

/-- `static_cast<SymbolId>(index + 1)`, where `SymbolId` is `uint32_t` -/
def symbolId (index : Nat) : Nat := (index + 1) % 2 ^ 32

/-- What `initialize_symbols` fills in. -/
structure Symbols where
  canonicalSymbols : List String := []
  symbolByHash : UInt64 → Option Nat := fun _ => none
  store : MarketDataStore := {}

/-- `emplace` keeps the value of a key that is there. -/
def emplace (map : UInt64 → Option Nat) (key : UInt64) (value : Nat) : UInt64 → Option Nat :=
  if (map key).isSome then map else Function.update map key (some value)

/-- One round of the loop; as many symbols are there as its index says. -/
def addSymbol (s : Symbols) (symbol : String) : Symbols :=
  let i := s.canonicalSymbols.length
  { canonicalSymbols := s.canonicalSymbols ++ [toLowercase symbol]
    symbolByHash := emplace s.symbolByHash (symbolHash symbol) i
    store := s.store.registerSymbol (symbolId i) (toLowercase symbol) }

/-- `initialize_symbols`, of the symbols of the markets -/
def initializeSymbols (store : MarketDataStore) (markets : List String) : Symbols := markets.foldl addSymbol { store }

structure SymbolRef where
  id : Nat := kInvalidSymbolId
  canonical : Option String := none
deriving DecidableEq

def resolveSymbol (s : Symbols) (symbol : String) : SymbolRef :=
  match s.symbolByHash (symbolHash symbol) with
  | none => {}
  | some index =>
    match s.canonicalSymbols[index]? with
    | none => {}
    | some canonical =>
      if canonical.toList.length ≠ symbol.toList.length then {}
      else if (canonical.toList.zip symbol.toList).any fun (a, c) => a != lowerByte c then {}
      else { id := symbolId index, canonical := some canonical }

/-! ## Letter case -/

theorem toNat_ofNat {n : Nat} (h : n < 128) : (Char.ofNat n).toNat = n := by
  have hvalid : n.isValidChar := Or.inl (by omega)
  unfold Char.ofNat
  rw [dif_pos hvalid]
  rfl

theorem lowerByte_eq (c : Char) : lowerByte c = c.toLower := by
  refine Char.toNat_inj.mp ?_
  rw [toNat_toLower]
  unfold lowerByte
  split
  · rw [toNat_ofNat (by omega)]
    omega
  · rfl

theorem toLowercase_toList (symbol : String) : (toLowercase symbol).toList = symbol.toList.map Char.toLower :=
  String.toList_ofList

theorem symbolHash_toLowercase {s t : String} (h : toLowercase s = toLowercase t) : symbolHash s = symbolHash t := by
  have hlist := congrArg String.toList h
  rw [toLowercase_toList, toLowercase_toList] at hlist
  exact symbolHash_congr hlist

theorem zip_any_eq_false {xs ys : List Char} (hlen : xs.length = ys.length) :
    ((xs.zip ys).any fun (a, c) => a != lowerByte c) = false ↔ xs = ys.map Char.toLower := by
  induction xs generalizing ys with
  | nil =>
    cases ys with
    | nil => exact iff_of_true rfl rfl
    | cons y ys => cases hlen
  | cons x xs ih =>
    cases ys with
    | nil => cases hlen
    | cons y ys =>
      have htail := ih (Nat.succ.inj hlen)
      have hhead : (x != lowerByte y) = false ↔ x = y.toLower := by
        rw [lowerByte_eq]
        exact bne_eq_false_iff_eq
      rw [List.zip_cons_cons, List.any_cons, Bool.or_eq_false_iff, htail, List.map_cons, List.cons.injEq]
      exact and_congr_left' hhead

/-- The comparison loop accepts the symbols that differ in case only. -/
theorem resolveSymbol_eq (s : Symbols) (symbol : String) : resolveSymbol s symbol =
    match (s.symbolByHash (symbolHash symbol)).bind fun index =>
      (s.canonicalSymbols[index]?).map fun canonical => (index, canonical) with
    | none => {}
    | some (index, canonical) =>
      if canonical = toLowercase symbol then { id := symbolId index, canonical := some canonical } else {} := by
  unfold resolveSymbol
  cases s.symbolByHash (symbolHash symbol) with
  | none => rfl
  | some index =>
    dsimp only [Option.bind_some]
    cases s.canonicalSymbols[index]? with
    | none => rfl
    | some canonical =>
      dsimp only [Option.map_some]
      have hcanonical : canonical = toLowercase symbol ↔ canonical.toList = symbol.toList.map Char.toLower := by
        rw [← String.toList_inj, toLowercase_toList]
      by_cases hlen : canonical.toList.length = symbol.toList.length
      · rw [if_neg (not_not.mpr hlen)]
        by_cases heq : canonical = toLowercase symbol
        · rw [if_pos heq, (zip_any_eq_false hlen).mpr (hcanonical.mp heq)]
          rfl
        · have hany : ((canonical.toList.zip symbol.toList).any fun (a, c) => a != lowerByte c) = true :=
            Bool.eq_true_of_not_eq_false fun hfalse => heq (hcanonical.mpr ((zip_any_eq_false hlen).mp hfalse))
          rw [if_neg heq, if_pos hany]
      · rw [if_pos hlen, if_neg]
        rw [hcanonical]
        intro heq
        rw [heq, List.length_map] at hlen
        exact hlen rfl

/-! ## The table -/

variable (store : MarketDataStore) (markets : List String)

theorem initializeSymbols_concat (symbol : String) :
    initializeSymbols store (markets ++ [symbol]) = addSymbol (initializeSymbols store markets) symbol :=
  List.foldl_concat _ _ _ _

theorem canonicalSymbols_eq : (initializeSymbols store markets).canonicalSymbols = markets.map toLowercase := by
  induction markets using List.reverseRecOn with
  | nil => rfl
  | append_singleton markets symbol ih =>
    rw [initializeSymbols_concat, List.map_append, ← ih]
    rfl

/-- Under a hash stands the first symbol that has it. -/
theorem symbolByHash_eq (hash : UInt64) :
    (initializeSymbols store markets).symbolByHash hash = markets.findIdx? fun m => symbolHash m == hash := by
  induction markets using List.reverseRecOn with
  | nil => rfl
  | append_singleton markets symbol ih =>
    have hlength : (initializeSymbols store markets).canonicalSymbols.length = markets.length := by
      rw [canonicalSymbols_eq, List.length_map]
    rw [initializeSymbols_concat, List.findIdx?_append, ← ih]
    have hlast : ([symbol].findIdx? fun m => symbolHash m == hash).map (· + markets.length) =
        if symbolHash symbol = hash then some markets.length else none := by
      rw [List.findIdx?_cons]
      by_cases hhash : symbolHash symbol = hash
      · rw [if_pos (beq_iff_eq.mpr hhash), if_pos hhash, Option.map_some, Nat.zero_add]
      · rw [if_neg (fun heq => hhash (beq_iff_eq.mp heq)), if_neg hhash]
        rfl
    rw [hlast]
    unfold addSymbol emplace
    dsimp only
    rw [hlength]
    by_cases hhash : symbolHash symbol = hash
    · subst hhash
      rw [if_pos rfl]
      cases hold : (initializeSymbols store markets).symbolByHash (symbolHash symbol) with
      | none =>
        rw [if_neg (by simp), Function.update_self]
        rfl
      | some index =>
        rw [if_pos (by simp), hold]
        rfl
    · rw [if_neg hhash, Option.or_none]
      split
      · rfl
      · exact Function.update_of_ne (Ne.symm hhash) _ _

/-! ## Resolution -/

/-- What the table says of a query: the first symbol with its hash, if that is
the query in other letters. -/
theorem resolveSymbol_table (query : String) : resolveSymbol (initializeSymbols store markets) query =
    match (markets.findIdx? fun m => symbolHash m == symbolHash query).bind fun index =>
      (markets[index]?).map fun m => (index, toLowercase m) with
    | none => {}
    | some (index, canonical) =>
      if canonical = toLowercase query then { id := symbolId index, canonical := some canonical } else {} := by
  rw [resolveSymbol_eq, symbolByHash_eq, canonicalSymbols_eq]
  simp only [List.getElem?_map, Option.map_map, Function.comp_def]

variable {markets}

/-- **A listed symbol is found**, in whatever letters, by the id of its index. -/
theorem resolve_listed (hdistinct : (markets.map toLowercase).Nodup)
    (hcollision : ∀ m ∈ markets, ∀ m' ∈ markets, symbolHash m = symbolHash m' → m = m') {i : Nat}
    (hi : i < markets.length) {query : String} (h : toLowercase markets[i] = toLowercase query) :
    resolveSymbol (initializeSymbols store markets) query =
      { id := symbolId i, canonical := some (toLowercase markets[i]) } := by
  have hhash := symbolHash_toLowercase h
  have hfind : (markets.findIdx? fun m => symbolHash m == symbolHash query) = some i := by
    refine List.findIdx?_eq_some_iff_getElem.mpr ⟨hi, beq_iff_eq.mpr hhash, fun j hji hj => ?_⟩
    have hj' : j < markets.length := hji.trans hi
    have hsame : markets[j] = markets[i] :=
      hcollision _ (List.getElem_mem hj') _ (List.getElem_mem hi) ((beq_iff_eq.mp hj).trans hhash.symm)
    have hlen : (markets.map toLowercase).length = markets.length := List.length_map _
    have hj'' : j < (markets.map toLowercase).length := by rwa [hlen]
    have hi' : i < (markets.map toLowercase).length := by rwa [hlen]
    have hmapped : (markets.map toLowercase)[j] = (markets.map toLowercase)[i] := by
      rw [List.getElem_map, List.getElem_map, hsame]
    exact hji.ne ((List.Nodup.getElem_inj_iff hdistinct).mp hmapped)
  rw [resolveSymbol_table, hfind]
  dsimp only [Option.bind_some]
  rw [List.getElem?_eq_getElem hi]
  exact if_pos h

/-- **Any other query is not found**, even if it has the hash of a listed symbol. -/
theorem resolve_unlisted {query : String} (h : ∀ m ∈ markets, toLowercase m ≠ toLowercase query) :
    resolveSymbol (initializeSymbols store markets) query = {} := by
  rw [resolveSymbol_table]
  cases (markets.findIdx? fun m => symbolHash m == symbolHash query) with
  | none => rfl
  | some index =>
    dsimp only [Option.bind_some]
    cases hm : markets[index]? with
    | none => rfl
    | some m => exact if_neg (h m (List.mem_of_getElem? hm))

/-! ## Buffers -/

/-- The id and the symbol lead to one buffer. -/
def Addresses (store : MarketDataStore) (id : Nat) (symbol : String) : Prop :=
  ∃ buffer, store.idBuffer id = some buffer ∧ store.buffers symbol = some buffer

theorem getOrCreate_idBuffer (symbol : String) (id : Nat) : (store.getOrCreate symbol).1.idBuffer id = store.idBuffer id := by
  unfold MarketDataStore.getOrCreate
  split <;> rfl

theorem getOrCreate_buffers {symbol : String} {buffer : Nat} (h : store.buffers symbol = some buffer)
    (symbol' : String) : (store.getOrCreate symbol').1.buffers symbol = some buffer := by
  unfold MarketDataStore.getOrCreate
  split
  · exact h
  · next hnone =>
    have hne : symbol ≠ symbol' := by
      rintro rfl
      rw [hnone] at h
      cases h
    exact (Function.update_of_ne hne _ _).trans h

theorem registerSymbol_eq {id : Nat} (h : id ≠ kInvalidSymbolId) (symbol : String) :
    (store.registerSymbol id symbol).buffers = (store.getOrCreate symbol).1.buffers ∧
      ∀ id', (store.registerSymbol id symbol).idBuffer id' =
        if id' = id then some (store.getOrCreate symbol).2 else store.idBuffer id' := by
  unfold MarketDataStore.registerSymbol
  rw [if_neg h]
  refine ⟨rfl, fun id' => ?_⟩
  rw [← getOrCreate_idBuffer store symbol id']
  exact Refines.idBuffer_set _ id id' _

theorem registerSymbol_addresses {id : Nat} (h : id ≠ kInvalidSymbolId) (symbol : String) :
    Addresses (store.registerSymbol id symbol) id symbol := by
  obtain ⟨hbuffers, hid⟩ := registerSymbol_eq store h symbol
  refine ⟨(store.getOrCreate symbol).2, ?_, ?_⟩
  · rw [hid, if_pos rfl]
  · rw [hbuffers]
    exact Refines.buffers_getOrCreate store symbol

variable {store}

theorem Addresses.registerSymbol {id : Nat} {symbol : String} (h : Addresses store id symbol) {id' : Nat}
    (hne : id ≠ id') (symbol' : String) : Addresses (store.registerSymbol id' symbol') id symbol := by
  obtain ⟨buffer, hid, hsymbol⟩ := h
  by_cases hvalid : id' = kInvalidSymbolId
  · unfold MarketDataStore.registerSymbol
    rw [if_pos hvalid]
    exact ⟨buffer, hid, hsymbol⟩
  · obtain ⟨hbuffers, hids⟩ := registerSymbol_eq store hvalid symbol'
    refine ⟨buffer, ?_, ?_⟩
    · rw [hids, if_neg hne]
      exact hid
    · rw [hbuffers]
      exact getOrCreate_buffers store hsymbol symbol'

def isUpsert : Operation → Bool
  | .registerSymbol _ _ => false
  | .upsert _ _ | .upsertId _ _ => true

/-- **Step lemma.**  Candles do not move buffers. -/
theorem Addresses.upsert {id : Nat} {symbol : String} (h : Addresses store id symbol) {op : Operation}
    (hop : isUpsert op = true) : Addresses (store.apply op) id symbol := by
  obtain ⟨buffer, hid, hsymbol⟩ := h
  cases op with
  | registerSymbol id' symbol' => cases hop
  | upsert symbol' kline =>
    exact ⟨buffer, (getOrCreate_idBuffer store symbol' id).trans hid, getOrCreate_buffers store hsymbol symbol'⟩
  | upsertId id' kline =>
    show Addresses (store.upsertId id' kline) id symbol
    unfold MarketDataStore.upsertId
    split
    · exact ⟨buffer, hid, hsymbol⟩
    · exact ⟨buffer, hid, hsymbol⟩

theorem Addresses.upserts {id : Nat} {symbol : String} (h : Addresses store id symbol) {ops : List Operation}
    (hops : ∀ op ∈ ops, isUpsert op = true) : Addresses (Run.exec MarketDataStore.apply store ops) id symbol := by
  have hstep : ∀ (s : MarketDataStore) (op : Operation), Addresses s id symbol → isUpsert op = true →
      Addresses (s.apply op) id symbol := fun s op hs hop => hs.upsert hop
  exact Run.exec_inv_guarded hstep h (Run.guarded_iff_forall.mpr hops)

variable (store)

/-- **Every id leads to its symbol's buffer**, as long as no two symbols share one. -/
theorem addressed (hlen : markets.length < 2 ^ 32) {i : Nat} {m : String} (hm : markets[i]? = some m) :
    Addresses (initializeSymbols store markets).store (i + 1) (toLowercase m) := by
  induction markets using List.reverseRecOn with
  | nil => cases hm
  | append_singleton markets symbol ih =>
    rw [List.length_append, List.length_singleton] at hlen
    have hlength : (initializeSymbols store markets).canonicalSymbols.length = markets.length := by
      rw [canonicalSymbols_eq, List.length_map]
    have hid : symbolId markets.length = markets.length + 1 := Nat.mod_eq_of_lt hlen
    rw [initializeSymbols_concat]
    unfold addSymbol
    dsimp only
    rw [hlength, hid]
    by_cases hi : i < markets.length
    · rw [List.getElem?_append_left hi] at hm
      exact (ih (by omega) hm).registerSymbol (by omega) (toLowercase symbol)
    · have hbound : i < (markets ++ [symbol]).length := (List.getElem?_eq_some_iff.mp hm).1
      rw [List.length_append, List.length_singleton] at hbound
      obtain rfl : i = markets.length := by omega
      rw [List.getElem?_concat_length] at hm
      obtain rfl := Option.some.inj hm
      exact registerSymbol_addresses _ (Nat.succ_ne_zero _) _

/-- **Main result.**  Of a list of fewer than `2^32` symbols that are distinct in
any letters and whose hashes are, too, the one that the query spells is found,
with the id of its buffer, whatever candles have come in; and nothing otherwise. -/
theorem resolve_exact {markets : List String} (hlen : markets.length < 2 ^ 32)
    (hdistinct : (markets.map toLowercase).Nodup)
    (hcollision : ∀ m ∈ markets, ∀ m' ∈ markets, symbolHash m = symbolHash m' → m = m')
    {ops : List Operation} (hops : ∀ op ∈ ops, isUpsert op = true) (query : String) :
    (∀ i (hi : i < markets.length), toLowercase markets[i] = toLowercase query →
      resolveSymbol (initializeSymbols store markets) query =
        { id := i + 1, canonical := some (toLowercase markets[i]) } ∧
      Addresses (Run.exec MarketDataStore.apply (initializeSymbols store markets).store ops) (i + 1)
        (toLowercase markets[i])) ∧
    ((∀ m ∈ markets, toLowercase m ≠ toLowercase query) →
      resolveSymbol (initializeSymbols store markets) query = {}) := by
  refine ⟨fun i hi h => ?_, resolve_unlisted store⟩
  have hid : symbolId i = i + 1 := Nat.mod_eq_of_lt (by omega)
  have hresolve := resolve_listed store hdistinct hcollision hi h
  rw [hid] at hresolve
  exact ⟨hresolve, (addressed store hlen (List.getElem?_eq_getElem hi)).upserts hops⟩

theorem resolve_exact_twoMarkets :
    resolveSymbol (initializeSymbols {} ["BTCUSDT", "EthUsdt"]) "ethUSDT" = { id := 2, canonical := some "ethusdt" } ∧
    resolveSymbol (initializeSymbols {} ["BTCUSDT", "EthUsdt"]) "XRPUSDT" = {} := by
  have hdistinct : (["BTCUSDT", "EthUsdt"].map toLowercase).Nodup := by decide +kernel
  have hcollision : ∀ m ∈ ["BTCUSDT", "EthUsdt"], ∀ m' ∈ ["BTCUSDT", "EthUsdt"],
      symbolHash m = symbolHash m' → m = m' := by decide +kernel
  have hops : ∀ op ∈ ([] : List Operation), isUpsert op = true := List.forall_mem_nil _
  have hexact := resolve_exact {} (by decide) hdistinct hcollision hops
  have hlower : toLowercase "EthUsdt" = toLowercase "ethUSDT" := by decide +kernel
  have hname : toLowercase "EthUsdt" = "ethusdt" := by decide +kernel
  have hfound := ((hexact "ethUSDT").1 1 (by decide) hlower).1
  constructor
  · rw [← hname]
    exact hfound
  · exact (hexact "XRPUSDT").2 (by decide +kernel)

/-! ## Too many symbols -/

/-- The last `n` digits to the base 43, as codes from that of `0` to that of `Z`. -/
def codes : Nat → Nat → List Nat
  | 0, _ => []
  | n + 1, i => (48 + i % 43) :: codes n (i / 43)

def sixCharacters (i : Nat) : String := String.ofList ((codes 6 i).map Char.ofNat)

/-- As many symbols as there are ids, counting 0. -/
@[irreducible] def manySymbols : List String := (List.range (2 ^ 32)).map sixCharacters

theorem codes_range (n i : Nat) : ∀ code ∈ codes n i, 48 ≤ code ∧ code ≤ 90 := by
  induction n generalizing i with
  | zero => exact List.forall_mem_nil _
  | succ n ih => exact List.forall_mem_cons.mpr ⟨by omega, ih (i / 43)⟩

theorem codes_injective {n i j : Nat} (hi : i < 43 ^ n) (hj : j < 43 ^ n) (h : codes n i = codes n j) : i = j := by
  induction n generalizing i j with
  | zero =>
    rw [pow_zero] at hi hj
    omega
  | succ n ih =>
    obtain ⟨hdigit, hrest⟩ := List.cons.inj h
    rw [pow_succ] at hi hj
    have hhigh := ih (by omega) (by omega) hrest
    omega

theorem sixCharacters_length (i : Nat) : (sixCharacters i).toList.length = 6 := by
  unfold sixCharacters
  rw [String.toList_ofList]
  rfl

theorem toNat_sixCharacters (i : Nat) : ∀ c ∈ (sixCharacters i).toList, 48 ≤ c.toNat ∧ c.toNat ≤ 90 := by
  unfold sixCharacters
  rw [String.toList_ofList]
  intro c hc
  obtain ⟨code, hcode, rfl⟩ := List.mem_map.mp hc
  have hrange := codes_range 6 i code hcode
  rw [toNat_ofNat (by omega)]
  exact hrange

theorem upperCode_sixCharacters (i : Nat) : (sixCharacters i).toList.map upperCode = codes 6 i := by
  unfold sixCharacters
  rw [String.toList_ofList, List.map_map]
  conv_rhs => rw [← List.map_id (codes 6 i)]
  refine List.map_congr_left fun code hcode => ?_
  have hrange := codes_range 6 i code hcode
  show upperCode (Char.ofNat code) = code
  unfold upperCode
  rw [toNat_ofNat (by omega), if_neg (by omega)]

theorem sixCharacters_injective {i j : Nat} (hi : i < 2 ^ 32) (hj : j < 2 ^ 32)
    (h : symbolHash (sixCharacters i) = symbolHash (sixCharacters j)) : i = j := by
  have hcode : ∀ k, ∀ c ∈ (sixCharacters k).toList, upperCode c ≤ 90 := by
    intro k c hc
    have hrange := toNat_sixCharacters k c hc
    unfold upperCode
    split <;> omega
  have hcodes := symbolHash_injective (sixCharacters_length i) (sixCharacters_length j) (hcode i) (hcode j) h
  rw [upperCode_sixCharacters, upperCode_sixCharacters] at hcodes
  have hpow : (2 : Nat) ^ 32 ≤ 43 ^ 6 := by decide
  exact codes_injective (hi.trans_le hpow) (hj.trans_le hpow) hcodes

theorem mem_manySymbols {m : String} : m ∈ manySymbols ↔ ∃ i < 2 ^ 32, sixCharacters i = m := by
  unfold manySymbols
  simp only [List.mem_map, List.mem_range]

theorem manySymbols_length : manySymbols.length = 2 ^ 32 := by
  unfold manySymbols
  rw [List.length_map, List.length_range]

theorem manySymbols_getElem {i : Nat} (h : i < manySymbols.length) : manySymbols[i] = sixCharacters i := by
  have hsome : manySymbols[i]? = some (sixCharacters i) := by
    rw [manySymbols_length] at h
    unfold manySymbols
    rw [List.getElem?_map, List.getElem?_range h]
    rfl
  exact Option.some.inj ((List.getElem?_eq_getElem h).symm.trans hsome)

theorem manySymbols_ascii {m : String} (hm : m ∈ manySymbols) : ∀ c ∈ m.toList, c.toNat < 128 := by
  intro c hc
  obtain ⟨i, -, rfl⟩ := mem_manySymbols.mp hm
  have hrange := toNat_sixCharacters i c hc
  omega

theorem manySymbols_distinct : (manySymbols.map toLowercase).Nodup := by
  unfold manySymbols
  rw [List.map_map]
  refine List.Nodup.map_on (fun i hi j hj h => ?_) List.nodup_range
  exact sixCharacters_injective (List.mem_range.mp hi) (List.mem_range.mp hj) (symbolHash_toLowercase h)

theorem manySymbols_collisionFree :
    ∀ m ∈ manySymbols, ∀ m' ∈ manySymbols, symbolHash m = symbolHash m' → m = m' := by
  intro m hm m' hm' h
  obtain ⟨i, hi, rfl⟩ := mem_manySymbols.mp hm
  obtain ⟨j, hj, rfl⟩ := mem_manySymbols.mp hm'
  rw [sixCharacters_injective hi hj h]

/-- The id 0 is never registered. -/
theorem idBuffer_zero (markets : List String) : (initializeSymbols {} markets).store.idBuffer kInvalidSymbolId = none := by
  induction markets using List.reverseRecOn with
  | nil => rfl
  | append_singleton markets symbol ih =>
    rw [initializeSymbols_concat]
    unfold addSymbol
    dsimp only
    by_cases hvalid : symbolId (initializeSymbols {} markets).canonicalSymbols.length = kInvalidSymbolId
    · unfold MarketDataStore.registerSymbol
      rw [if_pos hvalid]
      exact ih
    · have hzero : ¬ kInvalidSymbolId = symbolId (initializeSymbols {} markets).canonicalSymbols.length := Ne.symm hvalid
      rw [(registerSymbol_eq _ hvalid _).2, if_neg hzero]
      exact ih

/-- The last of `2^32` symbols is resolved to the id 0, which leads to no buffer. -/
theorem last_of_many_unaddressed :
    (∀ m ∈ manySymbols, ∀ c ∈ m.toList, c.toNat < 128) ∧ (manySymbols.map toLowercase).Nodup ∧
    (∀ m ∈ manySymbols, ∀ m' ∈ manySymbols, symbolHash m = symbolHash m' → m = m') ∧
    sixCharacters (2 ^ 32 - 1) ∈ manySymbols ∧
    resolveSymbol (initializeSymbols {} manySymbols) (sixCharacters (2 ^ 32 - 1)) =
      { id := kInvalidSymbolId, canonical := some (toLowercase (sixCharacters (2 ^ 32 - 1))) } ∧
    ¬ Addresses (initializeSymbols {} manySymbols).store kInvalidSymbolId
      (toLowercase (sixCharacters (2 ^ 32 - 1))) := by
  have hlast : 2 ^ 32 - 1 < manySymbols.length := by
    rw [manySymbols_length]
    decide
  have hget := manySymbols_getElem hlast
  have hid : symbolId (2 ^ 32 - 1) = kInvalidSymbolId := by decide
  have hresolve := resolve_listed {} manySymbols_distinct manySymbols_collisionFree hlast rfl
  rw [hid, hget] at hresolve
  refine ⟨fun m hm => manySymbols_ascii hm, manySymbols_distinct, manySymbols_collisionFree, ?_, hresolve, ?_⟩
  · rw [← hget]
    exact List.getElem_mem hlast
  · rintro ⟨buffer, hbuffer, -⟩
    rw [idBuffer_zero] at hbuffer
    cases hbuffer

end Sentum.Collector
