import Sentum.Lib.RingIndex
import Sentum.Lib.Run
import Mathlib.Algebra.Order.Ring.Rat
import Mathlib.Data.List.DropRight
import Mathlib.Data.Rat.Defs
import Mathlib.Logic.Function.Basic

/-!
# The market data store

A ring buffer of candles for every symbol.  A symbol is looked up by its name
or by its registered id; both lookups lead to the same buffer, so the buffers
are a heap and a `shared_ptr` is a position in it.

    store_refines : the queries of the store after any operations are those
                    of a map from symbols to lists of at most `capacity` candles

A ring buffer is compared with the list of everything ever appended to it: the
candle of position `k` lies in slot `k % capacity`, and what the buffer holds
are the last `capacity` entries of that list.
-/

namespace Sentum

open Run

structure Kline where
  timestamp : Int
  open_ : ℚ
  high : ℚ
  low : ℚ
  close : ℚ
  volume : ℚ
deriving DecidableEq

/-- A value-initialised candle. -/
instance : Inhabited Kline where
  default := { timestamp := 0, open_ := 0, high := 0, low := 0, close := 0, volume := 0 }

/-! ## Ring buffers -/

structure RingBuffer where
  data : List Kline
  capacity : Nat
  head : Nat := 0
  size : Nat := 0
deriving DecidableEq

namespace RingBuffer

def init (c : Nat) : RingBuffer := { data := List.replicate c default, capacity := c }

/-- `upsert_buffer` -/
def upsert (buffer : RingBuffer) (kline : Kline) : RingBuffer :=
  let lastIndex := (buffer.head + buffer.capacity - 1) % buffer.capacity
  if 0 < buffer.size ∧ (buffer.data.getD lastIndex default).timestamp = kline.timestamp then
    { buffer with data := buffer.data.set lastIndex kline }
  else
    { buffer with
      data := buffer.data.set buffer.head kline
      head := (buffer.head + 1) % buffer.capacity
      size := if buffer.size < buffer.capacity then buffer.size + 1 else buffer.size }

/-- `latest_buffer`, for a buffer that exists -/
def latest (buffer : RingBuffer) (limit : Nat) : List Kline :=
  if limit = 0 then []
  else
    let count := min limit buffer.size
    let start := (buffer.head + buffer.capacity - count) % buffer.capacity
    (List.range count).map fun i => buffer.data.getD ((start + i) % buffer.capacity) default

/-- `cumulative_return_buffer`, for a buffer that exists -/
def cumulativeReturn (buffer : RingBuffer) (lookback : Nat) : Option ℚ :=
  if lookback < 2 then none
  else
    let count := min lookback buffer.size
    if count < 2 then none
    else
      let firstIndex := (buffer.head + buffer.capacity - count) % buffer.capacity
      let lastIndex := (buffer.head + buffer.capacity - 1) % buffer.capacity
      let first := (buffer.data.getD firstIndex default).close
      if first ≤ 0 then none
      else some (((buffer.data.getD lastIndex default).close - first) / first)

end RingBuffer

/-! ## The store -/

structure MarketDataStore where
  capacityPerSymbol : Nat := 600
  /-- the buffers there are -/
  heap : List RingBuffer := []
  /-- `buffers_` -/
  buffers : String → Option Nat := fun _ => none
  /-- `id_buffers_` -/
  idBuffers : List (Option Nat) := []

namespace MarketDataStore

def kInvalidSymbolId : Nat := 0

def getOrCreate (store : MarketDataStore) (symbol : String) : MarketDataStore × Nat :=
  match store.buffers symbol with
  | some buffer => (store, buffer)
  | none =>
    ({ store with
       heap := store.heap ++ [RingBuffer.init store.capacityPerSymbol]
       buffers := Function.update store.buffers symbol (some store.heap.length) }, store.heap.length)

/-- `find(const std::string&)` -/
def find (store : MarketDataStore) (symbol : String) : Option RingBuffer :=
  (store.buffers symbol).bind fun buffer => store.heap[buffer]?

/-- `find(SymbolId)`: which buffer the id leads to -/
def idBuffer (store : MarketDataStore) (id : Nat) : Option Nat := store.idBuffers.getD id none

def findId (store : MarketDataStore) (id : Nat) : Option RingBuffer :=
  (store.idBuffer id).bind fun buffer => store.heap[buffer]?

def upsertBuffer (store : MarketDataStore) (buffer : Nat) (kline : Kline) : MarketDataStore :=
  { store with heap := store.heap.modify buffer fun b => b.upsert kline }

def registerSymbol (store : MarketDataStore) (id : Nat) (symbol : String) : MarketDataStore :=
  if id = kInvalidSymbolId then store
  else
    let (store, buffer) := store.getOrCreate symbol
    -- `resize(id + 1)` when the vector is too short
    let idBuffers := store.idBuffers ++ List.replicate (id + 1 - store.idBuffers.length) none
    { store with idBuffers := idBuffers.set id (some buffer) }

def upsert (store : MarketDataStore) (symbol : String) (kline : Kline) : MarketDataStore :=
  let (store, buffer) := store.getOrCreate symbol
  store.upsertBuffer buffer kline

def upsertId (store : MarketDataStore) (id : Nat) (kline : Kline) : MarketDataStore :=
  match store.idBuffer id with
  | some buffer => store.upsertBuffer buffer kline
  | none => store

def latestBuffer (buffer : Option RingBuffer) (limit : Nat) : List Kline :=
  match buffer with
  | none => []
  | some buffer => buffer.latest limit

def latest (store : MarketDataStore) (symbol : String) (limit : Nat) : List Kline :=
  latestBuffer (store.find symbol) limit

def latestId (store : MarketDataStore) (id : Nat) (limit : Nat) : List Kline :=
  latestBuffer (store.findId id) limit

def cumulativeReturn (store : MarketDataStore) (symbol : String) (lookback : Nat) : Option ℚ :=
  (store.find symbol).bind fun buffer => buffer.cumulativeReturn lookback

def cumulativeReturnId (store : MarketDataStore) (id : Nat) (lookback : Nat) : Option ℚ :=
  (store.findId id).bind fun buffer => buffer.cumulativeReturn lookback

def bufferSize : Option RingBuffer → Nat
  | none => 0
  | some buffer => buffer.size

def size (store : MarketDataStore) (symbol : String) : Nat := bufferSize (store.find symbol)

def sizeId (store : MarketDataStore) (id : Nat) : Nat := bufferSize (store.findId id)

inductive Operation where
  | registerSymbol (id : Nat) (symbol : String)
  | upsert (symbol : String) (kline : Kline)
  | upsertId (id : Nat) (kline : Kline)
deriving DecidableEq

def apply (store : MarketDataStore) : Operation → MarketDataStore
  | .registerSymbol id symbol => store.registerSymbol id symbol
  | .upsert symbol kline => store.upsert symbol kline
  | .upsertId id kline => store.upsertId id kline

end MarketDataStore

/-! ## The map of lists

What the store is for: a list of at most `capacity` candles for every symbol,
oldest first, and the symbol an id is registered for. -/

structure CandleLists where
  list : String → List Kline := fun _ => []
  symbolOf : Nat → Option String := fun _ => none

namespace CandleLists

/-- A candle replaces the last one if it has its timestamp; otherwise it is
appended and the oldest beyond `capacity` are dropped. -/
def insert (capacity : Nat) (l : List Kline) (kline : Kline) : List Kline :=
  if l.getLast?.map Kline.timestamp = some kline.timestamp then l.dropLast ++ [kline]
  else (l ++ [kline]).rtake capacity

def upsert (capacity : Nat) (c : CandleLists) (symbol : String) (kline : Kline) : CandleLists :=
  { c with list := Function.update c.list symbol (insert capacity (c.list symbol) kline) }

def apply (capacity : Nat) (c : CandleLists) : MarketDataStore.Operation → CandleLists
  | .registerSymbol id symbol =>
    if id = MarketDataStore.kInvalidSymbolId then c
    else { c with symbolOf := Function.update c.symbolOf id (some symbol) }
  | .upsert symbol kline => c.upsert capacity symbol kline
  | .upsertId id kline =>
    match c.symbolOf id with
    | some symbol => c.upsert capacity symbol kline
    | none => c

/-- The list an id leads to. -/
def listOfId (c : CandleLists) (id : Nat) : List Kline :=
  match c.symbolOf id with
  | some symbol => c.list symbol
  | none => []

/-- The return from the first to the last candle of a list of at least two
whose first close is positive. -/
def returnOf (l : List Kline) : Option ℚ :=
  match l.head?, l.getLast? with
  | some first, some last =>
    if 2 ≤ l.length ∧ 0 < first.close then some ((last.close - first.close) / first.close) else none
  | _, _ => none

end CandleLists

/-! ## A buffer and what was appended to it -/

theorem rtake_rtake {α : Type*} (l : List α) (m n : Nat) : (l.rtake m).rtake n = l.rtake (min n m) := by
  simp only [List.rtake_eq_reverse_take_reverse, List.reverse_reverse, List.take_take]

theorem length_rtake {α : Type*} (l : List α) (n : Nat) : (l.rtake n).length = min n l.length := by
  unfold List.rtake
  rw [List.length_drop]
  omega

theorem rtake_min_length {α : Type*} (l : List α) (n : Nat) : l.rtake (min n l.length) = l.rtake n := by
  unfold List.rtake
  congr 1
  omega

/-- Inserting into the last entries of a list: its last entry is replaced, or it grows. -/
theorem insert_rtake {capacity : Nat} (hc : 0 < capacity) (w : List Kline) (kline : Kline) :
    CandleLists.insert capacity (w.rtake capacity) kline =
      (if w.getLast?.map Kline.timestamp = some kline.timestamp then w.dropLast ++ [kline]
        else w ++ [kline]).rtake capacity := by
  obtain ⟨n, rfl⟩ : ∃ n, capacity = n + 1 := ⟨capacity - 1, by omega⟩
  have hgrow : ∀ l : List Kline, (l.rtake (n + 1) ++ [kline]).rtake (n + 1) = (l ++ [kline]).rtake (n + 1) := by
    intro l
    rw [List.rtake_concat_succ, List.rtake_concat_succ, rtake_rtake, Nat.min_eq_left (Nat.le_succ n)]
  unfold CandleLists.insert
  rcases List.eq_nil_or_concat w with rfl | ⟨front, last, rfl⟩
  · have hnone : ¬ ([] : List Kline).getLast?.map Kline.timestamp = some kline.timestamp := nofun
    rw [List.rtake_nil, if_neg hnone, if_neg hnone]
  · rw [List.concat_eq_append]
    have hlast : ((front ++ [last]).rtake (n + 1)).getLast? = (front ++ [last]).getLast? := by
      rw [List.rtake_concat_succ, List.getLast?_concat, List.getLast?_concat]
    rw [hlast]
    split
    · rw [List.rtake_concat_succ, List.dropLast_concat, List.dropLast_concat, List.rtake_concat_succ]
    · exact hgrow _

namespace RingBuffer

/-- **Invariant.**  The buffer holds the last `capacity` entries of `written`. -/
structure Represents (capacity : Nat) (b : RingBuffer) (written : List Kline) : Prop where
  capacity_eq : b.capacity = capacity
  length : b.data.length = capacity
  head : b.head = written.length % capacity
  size : b.size = min written.length capacity
  data : ∀ k, k < written.length → written.length ≤ k + capacity → b.data[k % capacity]? = written[k]?

variable {capacity : Nat} {b : RingBuffer} {written : List Kline}

theorem represents_init (capacity : Nat) : Represents capacity (init capacity) [] where
  capacity_eq := rfl
  length := List.length_replicate
  head := (Nat.zero_mod capacity).symm
  size := (Nat.zero_min capacity).symm
  data := fun _ hk => absurd hk (Nat.not_lt_zero _)

namespace Represents

/-- The slot `back` entries before the head. -/
theorem slot_back (h : Represents capacity b written) {back : Nat} (hc : back ≤ capacity)
    (hw : back ≤ written.length) :
    (b.head + b.capacity - back) % b.capacity = (written.length - back) % capacity := by
  rw [h.capacity_eq, h.head, RingIndex.back_mod hc hw]

/-- The entry the slot `back` entries before the head holds. -/
theorem entry_back (h : Represents capacity b written) {back : Nat} (hpos : 0 < back)
    (hc : back ≤ capacity) (hw : back ≤ written.length) :
    b.data[(b.head + b.capacity - back) % b.capacity]? = written[written.length - back]? := by
  rw [h.slot_back hc hw]
  exact h.data _ (by omega) (by omega)

theorem last_timestamp (h : Represents capacity b written) (hc : 0 < capacity) (kline : Kline) :
    0 < b.size ∧ (b.data.getD ((b.head + b.capacity - 1) % b.capacity) default).timestamp =
        kline.timestamp ↔
      written.getLast?.map Kline.timestamp = some kline.timestamp := by
  rw [h.size, List.getLast?_eq_getElem?, List.getD_eq_getElem?_getD]
  by_cases hw : 0 < written.length
  · rw [h.entry_back Nat.one_pos hc hw, List.getElem?_eq_getElem (by omega)]
    simp only [Option.getD_some, Option.map_some, Option.some.injEq]
    exact ⟨fun hb => hb.2, fun hb => ⟨by omega, hb⟩⟩
  · have hnil : written = [] := List.eq_nil_of_length_eq_zero (by omega)
    subst hnil
    simp

theorem replace (h : Represents capacity b written) (hc : 0 < capacity) (hw : written ≠ [])
    (kline : Kline) :
    Represents capacity
      { b with data := b.data.set ((b.head + b.capacity - 1) % b.capacity) kline }
      (written.dropLast ++ [kline]) := by
  have hpos : 0 < written.length := List.length_pos_iff.mpr hw
  have hlen : (written.dropLast ++ [kline]).length = written.length := by
    rw [List.length_append, List.length_dropLast]
    show written.length - 1 + 1 = written.length
    omega
  refine ⟨h.capacity_eq, by rw [List.length_set]; exact h.length, by rw [hlen]; exact h.head,
    by rw [hlen]; exact h.size, fun k hk hk' => ?_⟩
  rw [hlen] at hk hk'
  dsimp only
  rw [h.slot_back (by omega) hpos]
  by_cases hlast : k = written.length - 1
  · subst hlast
    rw [List.getElem?_set_self (by rw [h.length]; exact Nat.mod_lt _ hc), ← List.length_dropLast,
      List.getElem?_concat_length]
  · have hne : (written.length - 1) % capacity ≠ k % capacity := fun hmod => by
      have hk0 : written.length - capacity ≤ k := by omega
      exact hlast (RingIndex.eq_of_mod_eq hk0 (by omega) (by omega) (by omega) hmod.symm)
    rw [List.getElem?_set_ne hne, h.data k hk hk',
      List.getElem?_append_left (by rw [List.length_dropLast]; omega),
      List.getElem?_dropLast, if_pos (by omega)]

theorem append (h : Represents capacity b written) (hc : 0 < capacity) (kline : Kline) :
    Represents capacity
      { b with
        data := b.data.set b.head kline
        head := (b.head + 1) % b.capacity
        size := if b.size < b.capacity then b.size + 1 else b.size }
      (written ++ [kline]) := by
  have hlen : (written ++ [kline]).length = written.length + 1 := List.length_append
  refine ⟨h.capacity_eq, by rw [List.length_set]; exact h.length, ?_, ?_, fun k hk hk' => ?_⟩
  · rw [hlen, h.capacity_eq, h.head, RingIndex.succ_mod]
  · have hsize := h.size
    have hcap := h.capacity_eq
    dsimp only
    rw [hlen]
    split <;> omega
  · rw [hlen] at hk hk'
    dsimp only
    rw [h.head]
    by_cases hlast : k = written.length
    · subst hlast
      rw [List.getElem?_set_self (by rw [h.length]; exact Nat.mod_lt _ hc), List.getElem?_concat_length]
    · have hne : written.length % capacity ≠ k % capacity := fun hmod => by
        have hk0 : written.length + 1 - capacity ≤ k := by omega
        exact hlast (RingIndex.eq_of_mod_eq hk0 (by omega) (by omega) (by omega) hmod.symm)
      rw [List.getElem?_set_ne hne, h.data k (by omega) (by omega), List.getElem?_append_left (by omega)]

/-- **Step lemma.**  An upsert of the buffer is an insertion into the list it holds. -/
theorem upsert (h : Represents capacity b written) (hc : 0 < capacity) (kline : Kline) :
    ∃ written', Represents capacity (b.upsert kline) written' ∧
      written'.rtake capacity = CandleLists.insert capacity (written.rtake capacity) kline := by
  rw [insert_rtake hc]
  unfold RingBuffer.upsert
  by_cases hlast : written.getLast?.map Kline.timestamp = some kline.timestamp
  · have hw : written ≠ [] := by
      rintro rfl
      cases hlast
    refine ⟨_, ?_, (congrArg (List.rtake · capacity) (if_pos hlast)).symm⟩
    rw [if_pos ((h.last_timestamp hc kline).mpr hlast)]
    exact h.replace hc hw kline
  · refine ⟨_, ?_, (congrArg (List.rtake · capacity) (if_neg hlast)).symm⟩
    rw [if_neg (mt (h.last_timestamp hc kline).mp hlast)]
    exact h.append hc kline

/-- The query returns the last entries of the list the buffer holds. -/
theorem latest (h : Represents capacity b written) (limit : Nat) :
    b.latest limit = (written.rtake capacity).rtake limit := by
  unfold RingBuffer.latest
  split
  · next hzero =>
    subst hzero
    rw [List.rtake_zero]
  · have hsize := h.size
    have hcount : min limit b.size = min (min limit capacity) written.length := by omega
    rw [rtake_rtake, ← rtake_min_length, ← hcount]
    refine List.ext_getElem ?_ fun i hi _ => ?_
    · rw [length_rtake, List.length_map, List.length_range]
      omega
    · rw [List.length_map, List.length_range] at hi
      rw [List.getElem_map, List.getElem_range, h.slot_back (by omega) (by omega), h.capacity_eq,
        Nat.mod_add_mod, List.getD_eq_getElem?_getD, h.data _ (by omega) (by omega)]
      rw [List.getElem?_eq_getElem (by omega), Option.getD_some]
      exact List.getElem_drop.symm

theorem size_eq (h : Represents capacity b written) : b.size = (written.rtake capacity).length := by
  rw [h.size, length_rtake, Nat.min_comm]

/-- The return is that of the candles the query with the same limit returns. -/
theorem cumulativeReturn (h : Represents capacity b written) (lookback : Nat) :
    b.cumulativeReturn lookback = CandleLists.returnOf (b.latest lookback) := by
  have hsize := h.size
  have hlen : (b.latest lookback).length = min lookback b.size := by
    rw [h.latest, length_rtake, length_rtake]
    omega
  unfold RingBuffer.cumulativeReturn
  by_cases hcount : min lookback b.size < 2
  · -- fewer than two candles: the buffer says so, and so does the list
    have hnone : CandleLists.returnOf (b.latest lookback) = none := by
      unfold CandleLists.returnOf
      split
      · exact if_neg fun hboth => by omega
      · rfl
    rw [hnone]
    split
    · rfl
    · exact if_pos hcount
  · have hlist : b.latest lookback = written.rtake (min lookback b.size) := by
      rw [h.latest, rtake_rtake, ← rtake_min_length]
      congr 1
      omega
    have hhead : (b.latest lookback).head? = written[written.length - min lookback b.size]? := by
      rw [hlist]
      unfold List.rtake
      rw [List.head?_drop]
    have hlast : (b.latest lookback).getLast? = written[written.length - 1]? := by
      rw [hlist]
      unfold List.rtake
      rw [List.getLast?_drop, if_neg (by omega), List.getLast?_eq_getElem?]
    rw [if_neg (by omega), if_neg hcount]
    unfold CandleLists.returnOf
    dsimp only
    rw [hhead, hlast, hlen, List.getD_eq_getElem?_getD, List.getD_eq_getElem?_getD,
      h.entry_back (by omega) (by omega) (by omega), h.entry_back (by omega) (by omega) (by omega),
      List.getElem?_eq_getElem (by omega), List.getElem?_eq_getElem (by omega)]
    simp only [Option.getD_some]
    by_cases hfirst : written[written.length - min lookback b.size].close ≤ 0
    · rw [if_pos hfirst, if_neg (fun hboth => absurd hboth.2 (not_lt.mpr hfirst))]
    · rw [if_neg hfirst, if_pos ⟨by omega, not_le.mp hfirst⟩]

end Represents

end RingBuffer

/-! ## The store and the map of lists -/

namespace MarketDataStore

/-- **Invariant.**  Every symbol with a buffer has one of its own, which holds
its list, and an id leads to the buffer of the symbol it is registered for. -/
structure Refines (capacity : Nat) (store : MarketDataStore) (lists : CandleLists) : Prop where
  capacity_eq : store.capacityPerSymbol = capacity
  buffer : ∀ symbol p, store.buffers symbol = some p → ∃ b written, store.heap[p]? = some b ∧
    b.Represents capacity written ∧ lists.list symbol = written.rtake capacity
  unknown : ∀ symbol, store.buffers symbol = none → lists.list symbol = []
  own : ∀ symbol symbol' p, store.buffers symbol = some p → store.buffers symbol' = some p →
    symbol = symbol'
  ids : ∀ id, store.idBuffer id = (lists.symbolOf id).bind store.buffers
  registered : ∀ id symbol, lists.symbolOf id = some symbol → (store.buffers symbol).isSome

variable {capacity : Nat} {store : MarketDataStore} {lists : CandleLists}

theorem refines_init (capacity : Nat) : Refines capacity { capacityPerSymbol := capacity } {} where
  capacity_eq := rfl
  buffer := nofun
  unknown := fun _ _ => rfl
  own := nofun
  ids := fun _ => rfl
  registered := nofun

namespace Refines

theorem lt_length (h : Refines capacity store lists) {symbol : String} {p : Nat}
    (hp : store.buffers symbol = some p) : p < store.heap.length := by
  obtain ⟨b, _, hb, -⟩ := h.buffer symbol p hp
  exact (List.getElem?_eq_some_iff.mp hb).1

/-- What `get_or_create` does for a symbol without a buffer. -/
theorem create (h : Refines capacity store lists) {symbol : String}
    (hnone : store.buffers symbol = none) :
    Refines capacity
      { store with
        heap := store.heap ++ [RingBuffer.init store.capacityPerSymbol]
        buffers := Function.update store.buffers symbol (some store.heap.length) } lists := by
  refine ⟨h.capacity_eq, fun s p hp => ?_, fun s hs => ?_, fun s s' p hs hs' => ?_, fun id => ?_,
    fun id s hs => ?_⟩ <;> dsimp only at *
  · by_cases hsym : s = symbol
    · subst hsym
      rw [Function.update_self, Option.some.injEq] at hp
      subst hp
      refine ⟨RingBuffer.init capacity, [], ?_, RingBuffer.represents_init capacity,
        (h.unknown s hnone).trans (List.rtake_nil capacity).symm⟩
      rw [List.getElem?_concat_length, h.capacity_eq]
    · rw [Function.update_of_ne hsym] at hp
      rw [List.getElem?_append_left (h.lt_length hp)]
      exact h.buffer s p hp
  · by_cases hsym : s = symbol
    · subst hsym
      exact h.unknown s hnone
    · rw [Function.update_of_ne hsym] at hs
      exact h.unknown s hs
  · have hold : ∀ {t t' : String}, t ≠ symbol → store.buffers t = some p → t' = symbol →
        some store.heap.length = some p → False := by
      intro t t' _ ht _ hp
      have := h.lt_length ht
      rw [Option.some.injEq] at hp
      omega
    by_cases hsym : s = symbol <;> by_cases hsym' : s' = symbol
    · rw [hsym, hsym']
    · rw [hsym, Function.update_self] at hs
      rw [Function.update_of_ne hsym'] at hs'
      exact (hold hsym' hs' hsym hs).elim
    · rw [hsym', Function.update_self] at hs'
      rw [Function.update_of_ne hsym] at hs
      exact (hold hsym hs hsym' hs').elim
    · rw [Function.update_of_ne hsym] at hs
      rw [Function.update_of_ne hsym'] at hs'
      exact h.own s s' p hs hs'
  · -- no id leads to a symbol that had no buffer
    refine (h.ids id).trans ?_
    cases hid : lists.symbolOf id with
    | none => rfl
    | some t =>
      have ht : t ≠ symbol := by
        rintro rfl
        have := h.registered id t hid
        rw [hnone] at this
        cases this
      exact (Function.update_of_ne ht _ _).symm
  · by_cases hsym : s = symbol
    · rw [hsym, Function.update_self]
      rfl
    · rw [Function.update_of_ne hsym]
      exact h.registered id s hs

theorem getOrCreate (h : Refines capacity store lists) (symbol : String) :
    Refines capacity (store.getOrCreate symbol).1 lists := by
  unfold MarketDataStore.getOrCreate
  split
  · exact h
  · next hnone => exact h.create hnone

theorem buffers_getOrCreate (store : MarketDataStore) (symbol : String) :
    (store.getOrCreate symbol).1.buffers symbol = some (store.getOrCreate symbol).2 := by
  unfold MarketDataStore.getOrCreate
  split
  · next hsome => exact hsome
  · exact Function.update_self _ _ _

theorem upsertBuffer (h : Refines capacity store lists) (hc : 0 < capacity) {symbol : String}
    {p : Nat} (hp : store.buffers symbol = some p) (kline : Kline) :
    Refines capacity (store.upsertBuffer p kline) (lists.upsert capacity symbol kline) := by
  refine ⟨h.capacity_eq, fun s p' hs => ?_, fun s hs => ?_, h.own, h.ids, h.registered⟩
  · obtain ⟨b, written, hb, hrep, hlist⟩ := h.buffer s p' hs
    show ∃ b written, (store.heap.modify p _)[p']? = some b ∧ b.Represents capacity written ∧
      Function.update lists.list symbol _ s = written.rtake capacity
    rw [List.getElem?_modify, hb]
    by_cases hsym : s = symbol
    · subst hsym
      have hpp : p = p' := Option.some.inj (hp.symm.trans hs)
      obtain ⟨written', hrep', hlist'⟩ := hrep.upsert hc kline
      refine ⟨b.upsert kline, written', congrArg some (if_pos hpp), hrep', ?_⟩
      rw [Function.update_self, hlist', hlist]
    · have hpp : p ≠ p' := by
        rintro rfl
        exact hsym (h.own s symbol p hs hp)
      refine ⟨b, written, congrArg some (if_neg hpp), hrep, ?_⟩
      rw [Function.update_of_ne hsym, hlist]
  · have hsym : s ≠ symbol := by
      rintro rfl
      rw [show store.buffers s = none from hs] at hp
      cases hp
    exact (Function.update_of_ne hsym _ _).trans (h.unknown s hs)

theorem idBuffer_set (idBuffers : List (Option Nat)) (id id' : Nat) (p : Option Nat) :
    ((idBuffers ++ List.replicate (id + 1 - idBuffers.length) none).set id p).getD id' none =
      if id' = id then p else idBuffers.getD id' none := by
  rw [List.getD_eq_getElem?_getD, List.getD_eq_getElem?_getD]
  by_cases hid : id' = id
  · subst hid
    rw [if_pos rfl, List.getElem?_set_self
      (by rw [List.length_append, List.length_replicate]; omega), Option.getD_some]
  · rw [if_neg hid, List.getElem?_set_ne (Ne.symm hid)]
    by_cases hlt : id' < idBuffers.length
    · rw [List.getElem?_append_left hlt]
    · rw [List.getElem?_append_right (by omega), List.getElem?_eq_none (by omega : idBuffers.length ≤ id'),
        List.getElem?_replicate]
      split <;> rfl

theorem registerSymbol (h : Refines capacity store lists) (id : Nat) (symbol : String) :
    Refines capacity (store.registerSymbol id symbol)
      (lists.apply capacity (.registerSymbol id symbol)) := by
  unfold MarketDataStore.registerSymbol CandleLists.apply
  dsimp only
  split
  · exact h
  · have h' := h.getOrCreate symbol
    have hp := buffers_getOrCreate store symbol
    refine ⟨h'.capacity_eq, h'.buffer, h'.unknown, h'.own, fun id' => ?_, fun id' s hs => ?_⟩ <;>
      dsimp only at *
    · refine (idBuffer_set _ id id' _).trans ?_
      by_cases hid : id' = id
      · rw [if_pos hid, hid, Function.update_self]
        exact hp.symm
      · rw [if_neg hid, Function.update_of_ne hid]
        exact h'.ids id'
    · by_cases hid : id' = id
      · rw [hid, Function.update_self, Option.some.injEq] at hs
        rw [← hs, hp]
        rfl
      · rw [Function.update_of_ne hid] at hs
        exact h'.registered id' s hs

theorem upsertId (h : Refines capacity store lists) (hc : 0 < capacity) (id : Nat) (kline : Kline) :
    Refines capacity (store.upsertId id kline) (lists.apply capacity (.upsertId id kline)) := by
  have hid := h.ids id
  unfold MarketDataStore.upsertId CandleLists.apply
  dsimp only
  cases hsym : lists.symbolOf id with
  | none =>
    rw [hsym] at hid
    rw [hid]
    exact h
  | some symbol =>
    obtain ⟨p, hp⟩ := Option.isSome_iff_exists.mp (h.registered id symbol hsym)
    rw [hsym, Option.bind_some, hp] at hid
    rw [hid]
    exact h.upsertBuffer hc hp kline

/-- **Step lemma.** -/
theorem apply (h : Refines capacity store lists) (hc : 0 < capacity) (op : Operation) :
    Refines capacity (store.apply op) (lists.apply capacity op) := by
  cases op with
  | registerSymbol id symbol => exact h.registerSymbol id symbol
  | upsert symbol kline =>
    exact (h.getOrCreate symbol).upsertBuffer hc (buffers_getOrCreate store symbol) kline
  | upsertId id kline => exact h.upsertId hc id kline

/-! ## Queries -/

/-- The two lookups agree. -/
theorem findId (h : Refines capacity store lists) (id : Nat) :
    store.findId id = (lists.symbolOf id).bind store.find := by
  unfold MarketDataStore.findId MarketDataStore.find
  rw [h.ids id, Option.bind_assoc]

theorem latest (h : Refines capacity store lists) (symbol : String) (limit : Nat) :
    store.latest symbol limit = (lists.list symbol).rtake limit := by
  unfold MarketDataStore.latest MarketDataStore.find
  cases hp : store.buffers symbol with
  | none =>
    rw [h.unknown symbol hp, List.rtake_nil]
    rfl
  | some p =>
    obtain ⟨b, written, hb, hrep, hlist⟩ := h.buffer symbol p hp
    rw [Option.bind_some, hb, hlist]
    exact hrep.latest limit

theorem size (h : Refines capacity store lists) (symbol : String) :
    store.size symbol = (lists.list symbol).length := by
  unfold MarketDataStore.size MarketDataStore.find
  cases hp : store.buffers symbol with
  | none =>
    rw [h.unknown symbol hp]
    rfl
  | some p =>
    obtain ⟨b, written, hb, hrep, hlist⟩ := h.buffer symbol p hp
    rw [Option.bind_some, hb, hlist]
    exact hrep.size_eq

theorem bounded (h : Refines capacity store lists) (symbol : String) :
    (lists.list symbol).length ≤ capacity := by
  cases hp : store.buffers symbol with
  | none =>
    rw [h.unknown symbol hp]
    exact Nat.zero_le _
  | some p =>
    obtain ⟨b, written, -, -, hlist⟩ := h.buffer symbol p hp
    rw [hlist, length_rtake]
    exact Nat.min_le_left _ _

theorem cumulativeReturn (h : Refines capacity store lists) (symbol : String) (lookback : Nat) :
    store.cumulativeReturn symbol lookback = CandleLists.returnOf (store.latest symbol lookback) := by
  unfold MarketDataStore.cumulativeReturn MarketDataStore.latest MarketDataStore.find
  cases hp : store.buffers symbol with
  | none => rfl
  | some p =>
    obtain ⟨b, written, hb, hrep, -⟩ := h.buffer symbol p hp
    rw [Option.bind_some, hb]
    exact hrep.cumulativeReturn lookback

/-- The queries by id are those by the registered symbol, or find nothing. -/
theorem latestId (h : Refines capacity store lists) (id limit : Nat) :
    store.latestId id limit = (lists.listOfId id).rtake limit := by
  unfold MarketDataStore.latestId CandleLists.listOfId
  rw [h.findId id]
  cases lists.symbolOf id with
  | none => exact List.rtake_nil _ |>.symm
  | some symbol => exact h.latest symbol limit

theorem cumulativeReturnId (h : Refines capacity store lists) (id lookback : Nat) :
    store.cumulativeReturnId id lookback = CandleLists.returnOf (store.latestId id lookback) := by
  unfold MarketDataStore.cumulativeReturnId MarketDataStore.latestId
  rw [h.findId id]
  cases lists.symbolOf id with
  | none => rfl
  | some symbol => exact h.cumulativeReturn symbol lookback

end Refines

/-- **Run lemma.** -/
theorem refines_exec {capacity : Nat} (hc : 0 < capacity) (ops : List Operation) :
    Refines capacity (exec apply { capacityPerSymbol := capacity } ops)
      (exec (CandleLists.apply capacity) {} ops) := by
  refine exec_history (fun before s => Refines capacity s (exec (CandleLists.apply capacity) {} before))
    (refines_init capacity) (fun before s op h => ?_) ops
  rw [exec_snoc]
  exact h.apply hc op

end MarketDataStore

open MarketDataStore in
/-- The symbol whose list an operation upserts. -/
def CandleLists.target (lists : CandleLists) : Operation → Option String
  | .registerSymbol _ _ => none
  | .upsert symbol _ => some symbol
  | .upsertId id _ => lists.symbolOf id

open MarketDataStore in
theorem CandleLists.list_apply_of_ne {capacity : Nat} {lists : CandleLists} {op : Operation}
    {symbol : String} (h : lists.target op ≠ some symbol) :
    (lists.apply capacity op).list symbol = lists.list symbol := by
  have hne : ∀ s kline, some s ≠ some symbol →
      (lists.upsert capacity s kline).list symbol = lists.list symbol :=
    fun s kline hs => Function.update_of_ne (fun heq => hs (congrArg some heq.symm)) _ _
  cases op with
  | registerSymbol id s =>
    unfold apply
    dsimp only
    split <;> rfl
  | upsert s kline => exact hne s kline h
  | upsertId id kline =>
    unfold target at h
    unfold apply
    dsimp only at h ⊢
    split
    · next s hs => exact hne s kline (hs ▸ h)
    · rfl

namespace MarketDataStore

/-- **Main result.**  After any operations the store answers every query as
the map of bounded lists does. -/
theorem store_refines {capacity : Nat} (hc : 0 < capacity) (ops : List Operation) :
    let store := exec apply { capacityPerSymbol := capacity } ops
    let lists := exec (CandleLists.apply capacity) {} ops
    (∀ symbol, store.size symbol = (lists.list symbol).length ∧ (lists.list symbol).length ≤ capacity) ∧
    (∀ symbol limit, store.latest symbol limit = (lists.list symbol).rtake limit) ∧
    (∀ id limit, store.latestId id limit = (lists.listOfId id).rtake limit) ∧
    (∀ id symbol, lists.symbolOf id = some symbol → store.findId id = store.find symbol) ∧
    (∀ op symbol limit, lists.target op ≠ some symbol →
      (store.apply op).latest symbol limit = store.latest symbol limit) ∧
    (∀ symbol lookback,
      store.cumulativeReturn symbol lookback = CandleLists.returnOf (store.latest symbol lookback)) ∧
    (∀ id lookback,
      store.cumulativeReturnId id lookback = CandleLists.returnOf (store.latestId id lookback)) := by
  intro store lists
  have h : Refines capacity store lists := refines_exec hc ops
  refine ⟨fun symbol => ⟨h.size symbol, h.bounded symbol⟩, h.latest, h.latestId, ?_, ?_,
    h.cumulativeReturn, h.cumulativeReturnId⟩
  · intro id symbol hid
    rw [h.findId id, hid]
    rfl
  · intro op symbol limit hop
    rw [(h.apply hc op).latest, h.latest, CandleLists.list_apply_of_ne hop]

/-- Room for two candles: the first of three is dropped, and the id registered
in between leads to the same list. -/
theorem store_refines_two :
    let candle (timestamp : Int) (close : ℚ) : Kline :=
      { timestamp, open_ := 1, high := 2, low := 1, close, volume := 5 }
    let ops : List Operation := [.upsert "BTCUSDT" (candle 1 1), .registerSymbol 7 "BTCUSDT",
      .upsertId 7 (candle 2 2), .upsert "BTCUSDT" (candle 2 3), .upsertId 7 (candle 3 6)]
    let store := exec apply { capacityPerSymbol := 2 } ops
    store.latest "BTCUSDT" 5 = [candle 2 3, candle 3 6] ∧ store.cumulativeReturnId 7 2 = some 1 ∧
      store.latestId 7 1 = store.latest "BTCUSDT" 1 := by
  intro candle ops store
  obtain ⟨-, hlatest, -, hids, -, -, hreturn⟩ := store_refines (by decide : 0 < 2) ops
  refine ⟨(hlatest _ _).trans (by decide +kernel), (hreturn _ _).trans (by decide +kernel), ?_⟩
  exact congrArg (latestBuffer · 1) (hids 7 "BTCUSDT" (by decide +kernel))

end MarketDataStore

end Sentum
