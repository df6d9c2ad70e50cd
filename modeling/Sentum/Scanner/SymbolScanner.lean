import Mathlib.Data.List.Induction
import Mathlib.Data.Rat.Floor
import Sentum.Market.MarketEvent

/-!
# The symbol scanner

Two caches of cumulative returns and the symbol that was announced last.  A
cache is a hash table: the order in which it is walked is not specified, so
`onMarketEvent` takes the walk as an argument.
-/

namespace Sentum.Scanner

open Sentum.Market

structure SymbolPerformance where
  symbol : String := ""
  cumReturn : ℚ := 0
deriving DecidableEq

/-- `std::round(value * ROUND_FACTOR) / ROUND_FACTOR`; halves go away from zero. -/
def roundReturn (value : ℚ) : ℚ :=
  let scaled := value * 10 ^ 8
  let nearest := if 0 ≤ scaled then ⌊scaled + 1 / 2⌋ else ⌈scaled - 1 / 2⌉
  nearest / 10 ^ 8

/-- One entry for each symbol. -/
abbrev Cache := List (String × ℚ)

/-- `cache[symbol] = value` -/
def Cache.store (cache : Cache) (symbol : String) (value : ℚ) : Cache :=
  (symbol, value) :: cache.filter fun entry => decide (entry.1 ≠ symbol)

/-- `update_cache`, with what the store answers for the cumulative return. -/
def updateCache (cache : Cache) (event : MarketEvent) (answer : Option ℚ) : Cache :=
  match answer with
  | none => cache
  | some value => cache.store event.symbol (roundReturn value)

structure SymbolScanner where
  minReturnThreshold : ℚ
  returns30 : Cache := []
  returns60 : Cache := []
  lastTopSymbol : String := ""

/-- One entry of the walk. -/
def better (threshold : ℚ) (top : SymbolPerformance) (entry : String × ℚ) : SymbolPerformance :=
  if entry.2 ≤ threshold then top
  else if decide (top.symbol = "") || decide (top.cumReturn < entry.2) then { symbol := entry.1, cumReturn := entry.2 }
  else top

/-- The best symbol of a walk. -/
def topOf (threshold : ℚ) (walk : Cache) : SymbolPerformance := walk.foldl (better threshold) {}

namespace SymbolScanner

/-- The caches after an event. -/
def updated (s : SymbolScanner) (event : MarketEvent) (answer30 answer60 : Option ℚ) : SymbolScanner :=
  { s with
    returns30 := updateCache s.returns30 event answer30
    returns60 := updateCache s.returns60 event answer60 }

/-- `on_market_event` under `cache_mutex_`, and the symbol to call the handler with. -/
def onMarketEvent (s : SymbolScanner) (event : MarketEvent) (answer30 answer60 : Option ℚ) (walk : Cache) :
    SymbolScanner × Option SymbolPerformance :=
  if decide (event.symbol = "") || !event.closed then (s, none)
  else
    let s := s.updated event answer30 answer60
    let top := topOf s.minReturnThreshold walk
    if decide (top.symbol ≠ "") && decide (top.symbol ≠ s.lastTopSymbol) then
      ({ s with lastTopSymbol := top.symbol }, some top)
    else (s, none)

/-- `returns_30_` has the symbol above the threshold. -/
def aboveThreshold (s : SymbolScanner) (symbol : String) : Bool :=
  match s.returns30.lookup symbol with
  | none => false
  | some value => decide (s.minReturnThreshold < value)

end SymbolScanner

/-! ## The best symbol -/

/-- What a walk has found: nothing above the threshold, or the best entry. -/
structure Best (threshold : ℚ) (walk : Cache) (top : SymbolPerformance) : Prop where
  none : top.symbol = "" → ∀ entry ∈ walk, entry.2 ≤ threshold
  mem : top.symbol ≠ "" → (top.symbol, top.cumReturn) ∈ walk ∧ threshold < top.cumReturn
  le : ∀ entry ∈ walk, threshold < entry.2 → entry.2 ≤ top.cumReturn

theorem best_snoc {threshold : ℚ} {walk : Cache} {top : SymbolPerformance} (h : Best threshold walk top)
    {entry : String × ℚ} (hentry : entry.1 ≠ "") : Best threshold (walk ++ [entry]) (better threshold top entry) := by
  unfold better
  split
  · next hlow =>
    refine ⟨?_, ?_, ?_⟩
    · intro hempty e he
      rcases List.mem_append.mp he with he | he
      · exact h.none hempty e he
      · rw [List.mem_singleton.mp he]
        exact hlow
    · intro hsome
      exact ⟨List.mem_append_left _ (h.mem hsome).1, (h.mem hsome).2⟩
    · intro e he hhigh
      rcases List.mem_append.mp he with he | he
      · exact h.le e he hhigh
      · rw [List.mem_singleton.mp he] at hhigh
        exact absurd hlow (not_le.mpr hhigh)
  · next hhigh =>
    split
    · next hbetter =>
      refine ⟨fun hempty => absurd hempty hentry, ?_, ?_⟩
      · intro _
        exact ⟨List.mem_append_right _ (List.mem_singleton_self _), not_le.mp hhigh⟩
      · intro e he habove
        rcases List.mem_append.mp he with he | he
        · show e.2 ≤ entry.2
          simp only [Bool.or_eq_true, decide_eq_true_eq] at hbetter
          rcases hbetter with hempty | hlt
          · exact absurd (h.none hempty e he) (not_le.mpr habove)
          · exact (h.le e he habove).trans hlt.le
        · rw [List.mem_singleton.mp he]
    · next hworse =>
      simp only [Bool.or_eq_true, decide_eq_true_eq, not_or, not_lt] at hworse
      refine ⟨fun hempty => absurd hempty hworse.1, ?_, ?_⟩
      · intro hsome
        exact ⟨List.mem_append_left _ (h.mem hsome).1, (h.mem hsome).2⟩
      · intro e he habove
        rcases List.mem_append.mp he with he | he
        · exact h.le e he habove
        · rw [List.mem_singleton.mp he]
          exact hworse.2

/-- **The walk finds the best symbol**, in whatever order it goes. -/
theorem best_topOf (threshold : ℚ) (walk : Cache) (hnamed : ∀ entry ∈ walk, entry.1 ≠ "") :
    Best threshold walk (topOf threshold walk) := by
  unfold topOf
  induction walk using List.reverseRecOn with
  | nil =>
    refine ⟨fun _ entry he => ?_, fun hne => absurd rfl hne, fun entry he => ?_⟩
    · cases he
    · cases he
  | append_singleton walk entry ih =>
    rw [List.foldl_append, List.foldl_cons, List.foldl_nil]
    refine best_snoc (ih fun e he => hnamed e (List.mem_append_left _ he)) ?_
    exact hnamed entry (List.mem_append_right _ (List.mem_singleton_self _))

namespace SymbolScanner

section
variable {s s' : SymbolScanner} {event : MarketEvent} {answer30 answer60 : Option ℚ} {walk : Cache}

/-- What is announced is new, and noted as announced. -/
theorem onMarketEvent_announced {top : SymbolPerformance}
    (h : s.onMarketEvent event answer30 answer60 walk = (s', some top)) :
    s'.lastTopSymbol = top.symbol ∧ s'.returns30 = (s.updated event answer30 answer60).returns30 ∧
      top = topOf s.minReturnThreshold walk ∧ top.symbol ≠ "" := by
  unfold onMarketEvent at h
  split at h
  · cases h
  · simp only at h
    split at h
    · next hnew =>
      simp only [Bool.and_eq_true, decide_eq_true_eq] at hnew
      cases h
      exact ⟨rfl, rfl, rfl, hnew.1⟩
    · cases h

theorem onMarketEvent_silent (h : s.onMarketEvent event answer30 answer60 walk = (s', none)) :
    s'.lastTopSymbol = s.lastTopSymbol := by
  unfold onMarketEvent at h
  split at h
  · cases h
    rfl
  · simp only at h
    split at h <;> cases h
    rfl

/-- **What is announced leads**: it is above the threshold, and no symbol is better. -/
theorem announced_leads {top : SymbolPerformance}
    (h : s.onMarketEvent event answer30 answer60 walk = (s', some top)) (hwalk : walk.Perm s'.returns30)
    (hnamed : ∀ entry ∈ s'.returns30, entry.1 ≠ "") :
    (top.symbol, top.cumReturn) ∈ s'.returns30 ∧ s.minReturnThreshold < top.cumReturn ∧
      ∀ entry ∈ s'.returns30, s.minReturnThreshold < entry.2 → entry.2 ≤ top.cumReturn := by
  obtain ⟨-, -, htop, hsome⟩ := onMarketEvent_announced h
  have hbest := best_topOf s.minReturnThreshold walk fun entry he => hnamed entry (hwalk.mem_iff.mp he)
  rw [← htop] at hbest
  refine ⟨hwalk.mem_iff.mp (hbest.mem hsome).1, (hbest.mem hsome).2, ?_⟩
  intro entry he
  exact hbest.le entry (hwalk.mem_iff.mpr he)

end

end SymbolScanner

end Sentum.Scanner
