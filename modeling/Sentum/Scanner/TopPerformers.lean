import Sentum.Lib.LastPerKey
import Sentum.Lib.Run
import Sentum.Scanner.SymbolScanner
import Sentum.Std.Sort

/-!
# The best symbols

`fetchTopPerformers` sorts what a cache has above the threshold, and only as far
as it is asked for.  Whatever the scanner has heard,

* it lists distinct symbols, the best first, each with the return of its last
  closed candle, and leaves none out that is better than one it lists
  (`top_performers`);
* a short list is the beginning of the long one, and its head is what
  `onMarketEvent` finds (`short_list_agrees`).
-/

namespace Sentum.Scanner

open Sentum.Std Sentum.Market Run

/-- The comparator of both sorts: `a.cum_return > b.cum_return`. -/
def NotWorse (a b : SymbolPerformance) : Prop := a.cumReturn ≥ b.cumReturn

instance : DecidableRel NotWorse := fun a b => inferInstanceAs (Decidable (a.cumReturn ≥ b.cumReturn))

instance : Std.Total NotWorse := ⟨fun a b => le_total b.cumReturn a.cumReturn⟩

instance : IsTrans SymbolPerformance NotWorse := ⟨fun _ _ _ hab hbc => hbc.trans hab⟩

namespace SymbolScanner

/-- The cache of a lookback. -/
def cache (s : SymbolScanner) (lookback : Int) : Cache := if lookback ≤ 30 then s.returns30 else s.returns60

/-- The loop under `cache_mutex_`. -/
def candidates (s : SymbolScanner) (walk : Cache) : List SymbolPerformance :=
  (walk.filter fun entry => decide (s.minReturnThreshold < entry.2)).map fun entry =>
    { symbol := entry.1, cumReturn := entry.2 }

/-- `fetch_top_performers`; `walk` is the order of the cache. -/
def fetchTopPerformers (s : SymbolScanner) (full : Sorting NotWorse) (part : PartialSorting NotWorse)
    (maxSymbols : Int) (walk : Cache) : List SymbolPerformance :=
  let result := s.candidates walk
  let wanted := if 0 < maxSymbols then maxSymbols.toNat else result.length
  if wanted < result.length then (part.sort wanted result).take wanted else full.sort result

end SymbolScanner

/-- An event, the store's answers to it and the order of the cache. -/
structure Heard where
  event : MarketEvent
  answer30 : Option ℚ := none
  answer60 : Option ℚ := none
  walk : Cache := []

def hear (s : SymbolScanner) (h : Heard) : SymbolScanner :=
  (s.onMarketEvent h.event h.answer30 h.answer60 h.walk).1

namespace Heard

def answer (lookback : Int) (h : Heard) : Option ℚ := if lookback ≤ 30 then h.answer30 else h.answer60

/-- What is stored for an event. -/
def update (lookback : Int) (h : Heard) : Option (String × ℚ) :=
  if decide (h.event.symbol = "") || !h.event.closed then none
  else (h.answer lookback).map fun value => (h.event.symbol, roundReturn value)

end Heard

/-- The return of a symbol's last closed candle, as far as the store knew it. -/
def returnOf (lookback : Int) (events : List Heard) (symbol : String) : Option ℚ :=
  (LastPerKey.last Prod.fst (events.filterMap (Heard.update lookback)) symbol).map Prod.snd

/-! ## The caches -/

/-- **Invariant** of a cache and what has been stored in it. -/
structure Kept (updates cache : Cache) : Prop where
  nodup : (cache.map Prod.fst).Nodup
  named : ∀ entry ∈ cache, entry.1 ≠ ""
  mem_iff : ∀ entry, entry ∈ cache ↔ LastPerKey.last Prod.fst updates entry.1 = some entry

theorem kept_nil : Kept [] [] := by
  refine ⟨List.nodup_nil, fun entry he => ?_, fun entry => ⟨fun he => ?_, fun he => ?_⟩⟩ <;> cases he

theorem Kept.store {updates cache : Cache} (h : Kept updates cache) {symbol : String} (hnamed : symbol ≠ "")
    (value : ℚ) : Kept (updates ++ [(symbol, value)]) (cache.store symbol value) := by
  unfold Cache.store
  refine ⟨?_, ?_, ?_⟩
  · rw [List.map_cons, List.nodup_cons]
    refine ⟨fun hmem => ?_, h.nodup.sublist (List.filter_sublist.map _)⟩
    obtain ⟨entry, hentry, heq⟩ := List.mem_map.mp hmem
    exact (of_decide_eq_true (List.mem_filter.mp hentry).2) heq
  · intro entry hentry
    rcases List.mem_cons.mp hentry with rfl | hentry
    · exact hnamed
    · exact h.named entry (List.mem_filter.mp hentry).1
  · intro entry
    rw [List.mem_cons, List.mem_filter, LastPerKey.last_snoc, h.mem_iff, decide_eq_true_eq]
    by_cases hsymbol : symbol = entry.1
    · rw [if_pos hsymbol, Option.some.injEq]
      constructor
      · rintro (rfl | ⟨-, hne⟩)
        · rfl
        · exact absurd hsymbol.symm hne
      · intro heq
        exact Or.inl heq.symm
    · rw [if_neg hsymbol]
      constructor
      · rintro (rfl | ⟨hlast, -⟩)
        · exact absurd rfl hsymbol
        · exact hlast
      · intro hlast
        exact Or.inr ⟨hlast, fun heq => hsymbol heq.symm⟩

theorem Kept.updateCache {updates cache : Cache} (h : Kept updates cache) {event : MarketEvent}
    (hnamed : event.symbol ≠ "") (answer : Option ℚ) :
    Kept (updates ++ (answer.map fun value => (event.symbol, roundReturn value)).toList)
      (updateCache cache event answer) := by
  cases answer with
  | none =>
    rw [Option.map_none, Option.toList_none, List.append_nil]
    exact h
  | some value => exact h.store hnamed (roundReturn value)

theorem hear_threshold (s : SymbolScanner) (h : Heard) : (hear s h).minReturnThreshold = s.minReturnThreshold := by
  unfold hear SymbolScanner.onMarketEvent
  split
  · rfl
  · simp only
    split <;> rfl

/-- What an event does to a cache. -/
theorem hear_cache (s : SymbolScanner) (h : Heard) (lookback : Int) : (hear s h).cache lookback =
    if decide (h.event.symbol = "") || !h.event.closed then s.cache lookback
    else updateCache (s.cache lookback) h.event (h.answer lookback) := by
  unfold hear SymbolScanner.onMarketEvent
  split
  · rfl
  · simp only
    split <;> (unfold SymbolScanner.cache Heard.answer SymbolScanner.updated; split <;> rfl)

/-- **Step lemma.** -/
theorem kept_hear {s : SymbolScanner} {lookback : Int} {updates : Cache} (hkept : Kept updates (s.cache lookback))
    (h : Heard) : Kept (updates ++ (h.update lookback).toList) ((hear s h).cache lookback) := by
  rw [hear_cache]
  unfold Heard.update
  split
  · rw [Option.toList_none, List.append_nil]
    exact hkept
  · next hgo =>
    simp only [Bool.or_eq_true, decide_eq_true_eq, not_or] at hgo
    exact hkept.updateCache hgo.1 (h.answer lookback)

/-- **Run lemma.** -/
theorem kept_exec (threshold : ℚ) (lookback : Int) (events : List Heard) :
    Kept (events.filterMap (Heard.update lookback))
      ((exec hear { minReturnThreshold := threshold } events).cache lookback) := by
  induction events using List.reverseRecOn with
  | nil =>
    have hempty : SymbolScanner.cache { minReturnThreshold := threshold } lookback = [] := by
      unfold SymbolScanner.cache
      split <;> rfl
    rw [exec_nil, hempty]
    exact kept_nil
  | append_singleton events h ih =>
    rw [exec_snoc, List.filterMap_append, List.filterMap_cons, List.filterMap_nil]
    have hstep := kept_hear ih h
    cases hupdate : h.update lookback <;> rw [hupdate] at hstep <;> exact hstep

theorem threshold_exec (threshold : ℚ) (events : List Heard) :
    (exec hear { minReturnThreshold := threshold } events).minReturnThreshold = threshold := by
  have hstep : ∀ (s : SymbolScanner) (h : Heard), s.minReturnThreshold = threshold →
      (hear s h).minReturnThreshold = threshold := fun s h hs => (hear_threshold s h).trans hs
  exact exec_inv hstep rfl events

/-! ## The list -/

section
variable {s : SymbolScanner} {updates walk : Cache} {p : SymbolPerformance}
  (full : Sorting NotWorse) (part : PartialSorting NotWorse) (maxSymbols : Int)

theorem mem_candidates :
    p ∈ s.candidates walk ↔ (p.symbol, p.cumReturn) ∈ walk ∧ s.minReturnThreshold < p.cumReturn := by
  unfold SymbolScanner.candidates
  rw [List.mem_map]
  constructor
  · rintro ⟨entry, hentry, rfl⟩
    obtain ⟨hmem, habove⟩ := List.mem_filter.mp hentry
    exact ⟨hmem, of_decide_eq_true habove⟩
  · rintro ⟨hmem, habove⟩
    exact ⟨(p.symbol, p.cumReturn), List.mem_filter.mpr ⟨hmem, decide_eq_true habove⟩, rfl⟩

theorem nodup_candidates (h : (walk.map Prod.fst).Nodup) :
    ((s.candidates walk).map SymbolPerformance.symbol).Nodup := by
  unfold SymbolScanner.candidates
  rw [List.map_map]
  exact h.sublist (List.filter_sublist.map _)

/-- **What the list is**: some sorted candidates, and the rest of them, none of
which is better than one of the list; there is a rest only if the list is as long
as it may be. -/
theorem fetch_split (s : SymbolScanner) (walk : Cache) :
    ∃ rest, (s.fetchTopPerformers full part maxSymbols walk ++ rest).Perm (s.candidates walk) ∧
      (s.fetchTopPerformers full part maxSymbols walk).Pairwise NotWorse ∧
      (∀ a ∈ s.fetchTopPerformers full part maxSymbols walk, ∀ b ∈ rest, NotWorse a b) ∧
      (rest ≠ [] → 0 < maxSymbols ∧ (s.fetchTopPerformers full part maxSymbols walk).length = maxSymbols.toNat) ∧
      (0 < maxSymbols → (s.fetchTopPerformers full part maxSymbols walk).length ≤ maxSymbols.toNat) := by
  unfold SymbolScanner.fetchTopPerformers
  generalize s.candidates walk = result
  simp only
  by_cases hmax : 0 < maxSymbols
  · rw [if_pos hmax]
    by_cases hshort : maxSymbols.toNat < result.length
    · rw [if_pos hshort]
      have hlength : ((part.sort maxSymbols.toNat result).take maxSymbols.toNat).length = maxSymbols.toNat := by
        rw [List.length_take, (part.perm _ _).length_eq]
        omega
      refine ⟨(part.sort maxSymbols.toNat result).drop maxSymbols.toNat, ?_, part.sorted _ _, part.least _ _, ?_, ?_⟩
      · rw [List.take_append_drop]
        exact part.perm _ _
      · exact fun _ => ⟨hmax, hlength⟩
      · exact fun _ => hlength.le
    · rw [if_neg hshort]
      refine ⟨[], ?_, full.sorted _, fun _ _ _ hb => absurd hb List.not_mem_nil, fun hne => absurd rfl hne, fun _ => ?_⟩
      · rw [List.append_nil]
        exact full.perm _
      · rw [Sorting.length_sort]
        omega
  · rw [if_neg hmax, if_neg (Nat.lt_irrefl _)]
    refine ⟨[], ?_, full.sorted _, fun _ _ _ hb => absurd hb List.not_mem_nil, fun hne => absurd rfl hne, fun hpos => ?_⟩
    · rw [List.append_nil]
      exact full.perm _
    · exact absurd hpos hmax

/-- The list of any length: the beginning of a sort of all candidates. -/
theorem fetch_values (full' : Sorting NotWorse) (walk' : Cache) (hwalk : walk.Perm walk') :
    (s.fetchTopPerformers full part maxSymbols walk).map SymbolPerformance.cumReturn =
      ((full'.sort (s.candidates walk')).take
        (if 0 < maxSymbols then maxSymbols.toNat else (s.candidates walk').length)).map SymbolPerformance.cumReturn := by
  have hcandidates : (s.candidates walk).Perm (s.candidates walk') := (hwalk.filter _).map _
  -- a full sort is a partial one
  have hfull : ∀ k, (s.candidates walk).length ≤ k → (full.sort (s.candidates walk)).map SymbolPerformance.cumReturn =
      ((full'.sort (s.candidates walk')).take k).map SymbolPerformance.cumReturn := by
    intro k hk
    have hagree := PartialSorting.take_values (· ≥ ·) SymbolPerformance.cumReturn (PartialSorting.ofSorting full) full' k
      hcandidates
    have hall : (full.sort (s.candidates walk)).take k = full.sort (s.candidates walk) :=
      List.take_of_length_le (by rw [Sorting.length_sort]; exact hk)
    rw [← hagree]
    show _ = ((full.sort (s.candidates walk)).take k).map SymbolPerformance.cumReturn
    rw [hall]
  unfold SymbolScanner.fetchTopPerformers
  simp only
  by_cases hmax : 0 < maxSymbols
  · rw [if_pos hmax, if_pos hmax]
    by_cases hshort : maxSymbols.toNat < (s.candidates walk).length
    · rw [if_pos hshort]
      exact PartialSorting.take_values (· ≥ ·) SymbolPerformance.cumReturn part full' _ hcandidates
    · rw [if_neg hshort]
      exact hfull _ (by omega)
  · rw [if_neg hmax, if_neg hmax, if_neg (Nat.lt_irrefl _)]
    exact hfull _ hcandidates.length_eq.le

end

/-- **A list of a kept cache**: distinct symbols, the best first, each with the last
value stored for it; what is not on it found it full of symbols that are no worse. -/
theorem Kept.list {s : SymbolScanner} {lookback : Int} {updates : Cache} (h : Kept updates (s.cache lookback))
    (full : Sorting NotWorse) (part : PartialSorting NotWorse) (maxSymbols : Int) {walk : Cache}
    (hwalk : walk.Perm (s.cache lookback)) :
    let top := s.fetchTopPerformers full part maxSymbols walk
    (top.map SymbolPerformance.symbol).Nodup ∧ top.Pairwise NotWorse ∧
      (0 < maxSymbols → top.length ≤ maxSymbols.toNat) ∧
      (∀ p ∈ top, p.symbol ≠ "" ∧ s.minReturnThreshold < p.cumReturn ∧
        LastPerKey.last Prod.fst updates p.symbol = some (p.symbol, p.cumReturn)) ∧
      ∀ entry, LastPerKey.last Prod.fst updates entry.1 = some entry → s.minReturnThreshold < entry.2 →
        entry.1 ∉ top.map SymbolPerformance.symbol →
        0 < maxSymbols ∧ top.length = maxSymbols.toNat ∧ ∀ p ∈ top, entry.2 ≤ p.cumReturn := by
  dsimp only
  obtain ⟨rest, hperm, hsorted, hleast, hfullList, hshort⟩ := fetch_split full part maxSymbols s walk
  have hnodup : ((s.candidates walk).map SymbolPerformance.symbol).Nodup :=
    nodup_candidates ((hwalk.map Prod.fst).nodup_iff.mpr h.nodup)
  refine ⟨?_, hsorted, hshort, ?_, ?_⟩
  · have hboth := (hperm.map SymbolPerformance.symbol).nodup_iff.mpr hnodup
    rw [List.map_append] at hboth
    exact (List.nodup_append.mp hboth).1
  · intro p hp
    obtain ⟨hmem, habove⟩ := mem_candidates.mp (hperm.mem_iff.mp (List.mem_append_left _ hp))
    have hcached := hwalk.mem_iff.mp hmem
    exact ⟨h.named _ hcached, habove, (h.mem_iff (p.symbol, p.cumReturn)).mp hcached⟩
  · intro entry hlast habove hout
    have hmem : ({ symbol := entry.1, cumReturn := entry.2 } : SymbolPerformance) ∈ s.candidates walk :=
      mem_candidates.mpr ⟨hwalk.mem_iff.mpr ((h.mem_iff entry).mpr hlast), habove⟩
    rcases List.mem_append.mp (hperm.mem_iff.mpr hmem) with htop | hrest
    · exact absurd (List.mem_map_of_mem htop) hout
    · obtain ⟨hpos, hlength⟩ := hfullList (List.ne_nil_of_mem hrest)
      exact ⟨hpos, hlength, fun p hp => hleast p hp _ hrest⟩

/-- **Main result**: after any events, the list has distinct symbols, the best
first, each with the return of its last closed candle and above the threshold; a
symbol above the threshold that is not on it found the list full of symbols that
are no worse. -/
theorem top_performers (threshold : ℚ) (events : List Heard) (full : Sorting NotWorse) (part : PartialSorting NotWorse)
    (lookback maxSymbols : Int) (walk : Cache)
    (hwalk : walk.Perm ((exec hear { minReturnThreshold := threshold } events).cache lookback)) :
    let top := (exec hear { minReturnThreshold := threshold } events).fetchTopPerformers full part maxSymbols walk
    (top.map SymbolPerformance.symbol).Nodup ∧ top.Pairwise NotWorse ∧
      (0 < maxSymbols → top.length ≤ maxSymbols.toNat) ∧
      (∀ p ∈ top, threshold < p.cumReturn ∧ returnOf lookback events p.symbol = some p.cumReturn) ∧
      ∀ symbol value, returnOf lookback events symbol = some value → threshold < value →
        symbol ∉ top.map SymbolPerformance.symbol →
        0 < maxSymbols ∧ top.length = maxSymbols.toNat ∧ ∀ p ∈ top, value ≤ p.cumReturn := by
  dsimp only
  obtain ⟨hnodup, hsorted, hshort, hlisted, hmissing⟩ :=
    (kept_exec threshold lookback events).list full part maxSymbols hwalk
  rw [threshold_exec] at hlisted hmissing
  refine ⟨hnodup, hsorted, hshort, ?_, ?_⟩
  · intro p hp
    obtain ⟨-, habove, hlast⟩ := hlisted p hp
    exact ⟨habove, congrArg (Option.map Prod.snd) hlast⟩
  · intro symbol value hreturn habove hout
    obtain ⟨entry, hlast, rfl⟩ := Option.map_eq_some_iff.mp hreturn
    obtain ⟨-, rfl⟩ := LastPerKey.last_eq_some Prod.fst hlast
    exact hmissing entry hlast habove hout

/-- Two symbols are heard, and the better one is asked for. -/
def twoHeard : List Heard :=
  [{ event := { symbol := "BTCUSDC", closed := true }, answer30 := some (1 / 50) },
    { event := { symbol := "ETHUSDC", closed := true }, answer30 := some (3 / 100) }]

theorem top_performers_two :
    let top := (exec hear { minReturnThreshold := 1 / 100 } twoHeard).fetchTopPerformers Sorting.stable
      (PartialSorting.ofSorting Sorting.stable) 1 [("BTCUSDC", 1 / 50), ("ETHUSDC", 3 / 100)]
    top.length ≤ 1 ∧ ∀ p ∈ top, returnOf 30 twoHeard p.symbol = some p.cumReturn := by
  have h := top_performers (1 / 100) twoHeard Sorting.stable (PartialSorting.ofSorting Sorting.stable) 30 1
    [("BTCUSDC", 1 / 50), ("ETHUSDC", 3 / 100)] (by decide +kernel)
  exact ⟨h.2.2.1 (by decide), fun p hp => (h.2.2.2.1 p hp).2⟩

/-- **The paths agree**: whatever the walks and the sorts, a list of `k` symbols
has the returns the full list begins with, and the walk of `onMarketEvent` finds
the return at its head, or nothing where the list is empty. -/
theorem short_list_agrees (threshold : ℚ) (events : List Heard) (full full' : Sorting NotWorse)
    (part part' : PartialSorting NotWorse) (lookback maxSymbols : Int) (hmax : 0 < maxSymbols) (walk walk' : Cache)
    (hwalk : walk.Perm ((exec hear { minReturnThreshold := threshold } events).cache lookback))
    (hwalk' : walk'.Perm ((exec hear { minReturnThreshold := threshold } events).cache lookback)) :
    let s := exec hear { minReturnThreshold := threshold } events
    (s.fetchTopPerformers full part maxSymbols walk).map SymbolPerformance.cumReturn =
        ((s.fetchTopPerformers full' part' 0 walk').map SymbolPerformance.cumReturn).take maxSymbols.toNat ∧
      ((s.fetchTopPerformers full part maxSymbols walk).head?.map SymbolPerformance.cumReturn =
        if (topOf threshold walk').symbol = "" then none else some (topOf threshold walk').cumReturn) := by
  intro s
  have hsame := hwalk.trans hwalk'.symm
  have hkept := kept_exec threshold lookback events
  have hthreshold : s.minReturnThreshold = threshold := threshold_exec threshold events
  constructor
  · have hshort := fetch_values (s := s) full part maxSymbols full' walk' hsame
    have hlong := fetch_values (s := s) full' part' 0 full' walk' (List.Perm.refl walk')
    rw [if_pos hmax] at hshort
    rw [if_neg (lt_irrefl _), List.take_of_length_le (Sorting.length_sort full' _).le] at hlong
    rw [hshort, hlong, List.map_take]
  · have hbest := best_topOf threshold walk' fun entry he => hkept.named entry (hwalk'.mem_iff.mp he)
    obtain ⟨rest, hperm, hsorted, hleast, hfullList, -⟩ := fetch_split full part maxSymbols s walk
    have hmem : ∀ p, p ∈ s.candidates walk ↔ (p.symbol, p.cumReturn) ∈ walk' ∧ threshold < p.cumReturn := by
      intro p
      rw [mem_candidates, hthreshold, hsame.mem_iff]
    cases hlist : s.fetchTopPerformers full part maxSymbols walk with
    | nil =>
      rw [hlist] at hperm hfullList
      have hrest : rest = [] := by
        by_contra hne
        have hlength := (hfullList hne).2
        rw [List.length_nil] at hlength
        omega
      rw [hrest] at hperm
      -- no candidates, so the walk finds nothing
      have hnone : (topOf threshold walk').symbol = "" := by
        by_contra hsome
        exact absurd (hperm.mem_iff.mpr ((hmem (topOf threshold walk')).mpr (hbest.mem hsome))) List.not_mem_nil
      rw [if_pos hnone]
      rfl
    | cons p list =>
      rw [hlist] at hperm hsorted hleast
      obtain ⟨hp, habove⟩ := (hmem p).mp (hperm.mem_iff.mp (List.mem_append_left _ List.mem_cons_self))
      have hsome : (topOf threshold walk').symbol ≠ "" := fun hnone =>
        absurd (hbest.none hnone _ hp) (not_le.mpr habove)
      have hle : p.cumReturn ≤ (topOf threshold walk').cumReturn := hbest.le _ hp habove
      have hge : (topOf threshold walk').cumReturn ≤ p.cumReturn := by
        have hcandidate := hperm.mem_iff.mpr ((hmem (topOf threshold walk')).mpr (hbest.mem hsome))
        rcases List.mem_append.mp hcandidate with hin | hin
        · rcases List.mem_cons.mp hin with heq | hin
          · rw [heq]
          · exact (List.pairwise_cons.mp hsorted).1 _ hin
        · exact hleast p List.mem_cons_self _ hin
      rw [if_neg hsome, List.head?_cons, Option.map_some, le_antisymm hle hge]

theorem short_list_agrees_two :
    let s := exec hear { minReturnThreshold := 1 / 100 } twoHeard
    (s.fetchTopPerformers Sorting.stable (PartialSorting.ofSorting Sorting.stable) 1
        [("BTCUSDC", 1 / 50), ("ETHUSDC", 3 / 100)]).map SymbolPerformance.cumReturn =
      ((s.fetchTopPerformers Sorting.stable (PartialSorting.ofSorting Sorting.stable) 0
        [("ETHUSDC", 3 / 100), ("BTCUSDC", 1 / 50)]).map SymbolPerformance.cumReturn).take 1 :=
  (short_list_agrees (1 / 100) twoHeard Sorting.stable Sorting.stable (PartialSorting.ofSorting Sorting.stable)
    (PartialSorting.ofSorting Sorting.stable) 30 1 (by decide) [("BTCUSDC", 1 / 50), ("ETHUSDC", 3 / 100)]
    [("ETHUSDC", 3 / 100), ("BTCUSDC", 1 / 50)] (by decide +kernel) (by decide +kernel)).1

end Sentum.Scanner
