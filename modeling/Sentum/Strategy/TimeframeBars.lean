import Mathlib.Algebra.BigOperators.Group.List.Basic
import Mathlib.Algebra.Order.Ring.Rat
import Mathlib.Data.List.Induction
import Mathlib.Data.List.Pairwise
import Mathlib.Order.Bounds.Basic
import Sentum.Strategy.StrategyFramework

/-!
# The bars of a timeframe

`TimeframeAggregator` closes a frame with the first valid event of another
bucket and opens the next one with it.  Over events in order, every frame is the
bar of exactly the valid events of its bucket (`frames_exact`).
-/

namespace Sentum.Strategy

open Sentum Market

/-! ## What a bar is -/

def bucketOf (seconds : Int) (e : MarketEvent) : Int := (toSeconds e.timestamp).tdiv seconds

/-- The valid events of a bucket. -/
def eventsOf (seconds bucket : Int) (events : List MarketEvent) : List MarketEvent :=
  events.filter fun e => decide (0 < e.tradedAt ∧ bucketOf seconds e = bucket)

/-- First, highest, lowest and last price, and the volume, of these events. -/
structure IsBar (f : AggregatedFrame) (es : List MarketEvent) : Prop where
  openPrice : es.head?.map MarketEvent.tradedAt = some f.openPrice
  high : IsGreatest {price | ∃ e ∈ es, e.tradedAt = price} f.high
  low : IsLeast {price | ∃ e ∈ es, e.tradedAt = price} f.low
  close : es.getLast?.map MarketEvent.tradedAt = some f.close
  volume : f.volume = (es.map MarketEvent.volume).sum

/-- The frame a valid event opens. -/
def opened (seconds : Int) (e : MarketEvent) : AggregatedFrame :=
  { bucket := bucketOf seconds e, openPrice := e.tradedAt, high := e.tradedAt, low := e.tradedAt
    close := e.tradedAt, volume := e.volume }

/-- A frame and one more valid event of its bucket. -/
def extended (f : AggregatedFrame) (e : MarketEvent) : AggregatedFrame :=
  { f with high := max f.high e.tradedAt, low := min f.low e.tradedAt, close := e.tradedAt
           volume := f.volume + e.volume }

theorem isBar_opened (seconds : Int) (e : MarketEvent) : IsBar (opened seconds e) [e] where
  openPrice := rfl
  high := by
    refine ⟨⟨e, List.mem_singleton_self e, rfl⟩, ?_⟩
    rintro price ⟨e', he', rfl⟩
    rw [List.mem_singleton.mp he']
    exact le_refl _
  low := by
    refine ⟨⟨e, List.mem_singleton_self e, rfl⟩, ?_⟩
    rintro price ⟨e', he', rfl⟩
    rw [List.mem_singleton.mp he']
    exact le_refl _
  close := rfl
  volume := (List.sum_singleton).symm

theorem IsBar.ne_nil {f : AggregatedFrame} {es : List MarketEvent} (h : IsBar f es) : es ≠ [] := by
  rintro rfl
  cases h.openPrice

theorem IsBar.extended {f : AggregatedFrame} {es : List MarketEvent} (h : IsBar f es) (e : MarketEvent) :
    IsBar (extended f e) (es ++ [e]) where
  openPrice := by
    rw [List.head?_append_of_ne_nil _ h.ne_nil]
    exact h.openPrice
  high := by
    constructor
    · rcases max_choice f.high e.tradedAt with hmax | hmax
      · obtain ⟨e', he', heq⟩ := h.high.1
        exact ⟨e', List.mem_append_left _ he', heq.trans hmax.symm⟩
      · exact ⟨e, List.mem_append_right _ (List.mem_singleton_self e), hmax.symm⟩
    · rintro price ⟨e', he', rfl⟩
      rcases List.mem_append.mp he' with he' | he'
      · exact (h.high.2 ⟨e', he', rfl⟩).trans (le_max_left _ _)
      · rw [List.mem_singleton.mp he']
        exact le_max_right _ _
  low := by
    constructor
    · rcases min_choice f.low e.tradedAt with hmin | hmin
      · obtain ⟨e', he', heq⟩ := h.low.1
        exact ⟨e', List.mem_append_left _ he', heq.trans hmin.symm⟩
      · exact ⟨e, List.mem_append_right _ (List.mem_singleton_self e), hmin.symm⟩
    · rintro price ⟨e', he', rfl⟩
      rcases List.mem_append.mp he' with he' | he'
      · exact (min_le_left _ _).trans (h.low.2 ⟨e', he', rfl⟩)
      · rw [List.mem_singleton.mp he']
        exact min_le_right _ _
  close := by
    rw [List.getLast?_concat]
    rfl
  volume := by
    rw [List.map_append, List.sum_append, ← h.volume, List.map_singleton, List.sum_singleton]
    rfl

/-! ## One push -/

namespace TimeframeAggregator

theorem push_invalid (a : TimeframeAggregator) {e : MarketEvent} (h : ¬ 0 < e.tradedAt) : a.push e = (a, false) :=
  if_pos h

theorem push_first {a : TimeframeAggregator} {e : MarketEvent} (hvalid : 0 < e.tradedAt) (h : a.current = {}) :
    a.push e = ({ a with current := opened a.seconds e }, false) := by
  have hbucket : ({} : AggregatedFrame).bucket = -1 := rfl
  have hclosed : ¬ (0 ≤ ({} : AggregatedFrame).bucket ∧
      (toSeconds e.timestamp).tdiv a.seconds ≠ ({} : AggregatedFrame).bucket) := by
    rw [hbucket]
    omega
  unfold push
  rw [if_neg (not_not.mpr hvalid)]
  dsimp only
  rw [h, decide_eq_false hclosed, if_neg Bool.false_ne_true, h, if_pos (by rw [hbucket]; omega)]
  dsimp only
  rw [zero_add]
  rfl

theorem push_same {a : TimeframeAggregator} {e : MarketEvent} (hvalid : 0 < e.tradedAt)
    (hstarted : 0 ≤ a.current.bucket) (h : bucketOf a.seconds e = a.current.bucket) :
    a.push e = ({ a with current := extended a.current e }, false) := by
  have hclosed : ¬ (0 ≤ a.current.bucket ∧ (toSeconds e.timestamp).tdiv a.seconds ≠ a.current.bucket) :=
    fun hne => hne.2 h
  unfold push
  rw [if_neg (not_not.mpr hvalid)]
  dsimp only
  rw [decide_eq_false hclosed, if_neg Bool.false_ne_true, if_neg (not_lt.mpr hstarted)]
  rfl

theorem push_next {a : TimeframeAggregator} {e : MarketEvent} (hvalid : 0 < e.tradedAt)
    (hstarted : 0 ≤ a.current.bucket) (h : bucketOf a.seconds e ≠ a.current.bucket) :
    a.push e =
      ({ a with latestClosed := { a.current with ready := true }, current := opened a.seconds e }, true) := by
  have hclosed : 0 ≤ a.current.bucket ∧ (toSeconds e.timestamp).tdiv a.seconds ≠ a.current.bucket := ⟨hstarted, h⟩
  have hbucket : ({} : AggregatedFrame).bucket < 0 := by decide
  unfold push
  rw [if_neg (not_not.mpr hvalid)]
  dsimp only
  rw [decide_eq_true hclosed, if_pos rfl, if_pos hbucket]
  dsimp only
  rw [zero_add]
  rfl

end TimeframeAggregator

/-! ## Runs -/

/-- The aggregator after one more event, and the frames it has closed. -/
def record (s : TimeframeAggregator × List AggregatedFrame) (e : MarketEvent) :
    TimeframeAggregator × List AggregatedFrame :=
  let (a, closed) := s.1.push e
  (a, if closed then s.2 ++ [a.latestClosed] else s.2)

def recordAll (seconds : Int) (events : List MarketEvent) : TimeframeAggregator × List AggregatedFrame :=
  events.foldl record (.init seconds, [])

theorem eventsOf_snoc (seconds bucket : Int) (events : List MarketEvent) (e : MarketEvent) :
    eventsOf seconds bucket (events ++ [e]) =
      eventsOf seconds bucket events ++ if 0 < e.tradedAt ∧ bucketOf seconds e = bucket then [e] else [] := by
  unfold eventsOf
  rw [List.filter_append, List.filter_singleton]
  by_cases h : 0 < e.tradedAt ∧ bucketOf seconds e = bucket <;> simp [h]

theorem mem_eventsOf {seconds bucket : Int} {events : List MarketEvent} {e : MarketEvent} :
    e ∈ eventsOf seconds bucket events ↔ e ∈ events ∧ 0 < e.tradedAt ∧ bucketOf seconds e = bucket := by
  unfold eventsOf
  rw [List.mem_filter, decide_eq_true_eq]

theorem bucketOf_mono {seconds : Int} (hs : 1 ≤ seconds) {e e' : MarketEvent} (h : e.timestamp ≤ e'.timestamp) :
    bucketOf seconds e ≤ bucketOf seconds e' :=
  Int.tdiv_le_tdiv hs (Int.tdiv_le_tdiv (by decide) h)

theorem bucketOf_nonneg {seconds : Int} (hs : 1 ≤ seconds) {e : MarketEvent} (h : 0 ≤ e.timestamp) :
    0 ≤ bucketOf seconds e :=
  Int.tdiv_nonneg (Int.tdiv_nonneg h (by decide)) (by omega)

/-- **Invariant** once there was a valid event: the frames, the current one
included, are the bars of the buckets. -/
structure Grouped (n : Int) (events : List MarketEvent) (s : TimeframeAggregator × List AggregatedFrame) : Prop where
  started : 0 ≤ s.1.current.bucket
  increasing : (s.2 ++ [s.1.current]).Pairwise fun f g => f.bucket < g.bucket
  bars : ∀ f ∈ s.2 ++ [s.1.current], IsBar f (eventsOf n f.bucket events)
  covered : ∀ e ∈ events, 0 < e.tradedAt → ∃ f ∈ s.2 ++ [s.1.current], f.bucket = bucketOf n e

section Step

variable {n : Int} {events : List MarketEvent} {s : TimeframeAggregator × List AggregatedFrame} {e : MarketEvent}

/-- No frame is of a later bucket than the next event. -/
theorem Grouped.bucket_le (h : Grouped n events s) (hn : 1 ≤ n) (hlater : ∀ e' ∈ events, e'.timestamp ≤ e.timestamp)
    {f : AggregatedFrame} (hf : f ∈ s.2 ++ [s.1.current]) : f.bucket ≤ bucketOf n e := by
  obtain ⟨e', he'⟩ := List.exists_mem_of_ne_nil _ (h.bars f hf).ne_nil
  obtain ⟨hmem, -, hbucket⟩ := mem_eventsOf.mp he'
  rw [← hbucket]
  exact bucketOf_mono hn (hlater e' hmem)

theorem Grouped.invalid (h : Grouped n events s) (hinvalid : ¬ 0 < e.tradedAt) : Grouped n (events ++ [e]) s where
  started := h.started
  increasing := h.increasing
  bars := by
    intro f hf
    rw [eventsOf_snoc, if_neg fun hvalid => hinvalid hvalid.1, List.append_nil]
    exact h.bars f hf
  covered := by
    intro e' he' hvalid
    rcases List.mem_append.mp he' with he' | he'
    · exact h.covered e' he' hvalid
    · rw [List.mem_singleton.mp he'] at hvalid
      exact absurd hvalid hinvalid

/-- An event outside the bucket of a bar leaves it the bar of its bucket. -/
theorem IsBar.other {f : AggregatedFrame} {bucket : Int} (h : IsBar f (eventsOf n bucket events))
    (hother : bucketOf n e ≠ bucket) : IsBar f (eventsOf n bucket (events ++ [e])) := by
  rw [eventsOf_snoc, if_neg fun hvalid => hother hvalid.2, List.append_nil]
  exact h

/-- The first valid event of a bucket is its bar. -/
theorem isBar_new (hnew : ∀ e' ∈ events, 0 < e'.tradedAt → bucketOf n e' ≠ bucketOf n e) (hvalid : 0 < e.tradedAt) :
    IsBar (opened n e) (eventsOf n (bucketOf n e) (events ++ [e])) := by
  have hnone : eventsOf n (bucketOf n e) events = [] := by
    rw [List.eq_nil_iff_forall_not_mem]
    intro e' he'
    obtain ⟨hmem, hvalid', hsame⟩ := mem_eventsOf.mp he'
    exact hnew e' hmem hvalid' hsame
  rw [eventsOf_snoc, if_pos ⟨hvalid, rfl⟩, hnone]
  exact isBar_opened n e

theorem IsBar.closed {f : AggregatedFrame} {es : List MarketEvent} (h : IsBar f es) :
    IsBar { f with ready := true } es :=
  ⟨h.openPrice, h.high, h.low, h.close, h.volume⟩

/-- The first valid event. -/
theorem Grouped.first (a : TimeframeAggregator) (hinvalid : ∀ e' ∈ events, ¬ 0 < e'.tradedAt)
    (hvalid : 0 < e.tradedAt) (hbucket : 0 ≤ bucketOf n e) :
    Grouped n (events ++ [e]) ({ a with current := opened n e }, []) where
  started := hbucket
  increasing := List.pairwise_singleton _ _
  bars := by
    intro f hf
    rw [List.mem_singleton.mp hf]
    exact isBar_new (fun e' he' hvalid' => absurd hvalid' (hinvalid e' he')) hvalid
  covered := by
    intro e' he' hvalid'
    rcases List.mem_append.mp he' with he' | he'
    · exact absurd hvalid' (hinvalid e' he')
    · rw [List.mem_singleton.mp he']
      exact ⟨opened n e, List.mem_singleton_self _, rfl⟩

/-- The closed frames are of earlier buckets than the current one. -/
theorem Grouped.closed_lt (h : Grouped n events s) {f : AggregatedFrame} (hf : f ∈ s.2) :
    f.bucket < s.1.current.bucket :=
  (List.pairwise_append.mp h.increasing).2.2 f hf _ (List.mem_singleton_self _)

/-- A frame in the current one's place keeps the order, if it is of its bucket. -/
theorem Grouped.replaced (h : Grouped n events s) {g : AggregatedFrame} (hg : g.bucket = s.1.current.bucket) :
    (s.2 ++ [g]).Pairwise fun f g => f.bucket < g.bucket := by
  refine List.pairwise_append.mpr ⟨(List.pairwise_append.mp h.increasing).1, List.pairwise_singleton _ _, ?_⟩
  intro f hf g' hg'
  rw [List.mem_singleton.mp hg', hg]
  exact h.closed_lt hf

/-- Every earlier event has a frame then, too. -/
theorem Grouped.covered_replaced (h : Grouped n events s) {g : AggregatedFrame}
    (hg : g.bucket = s.1.current.bucket) {e' : MarketEvent} (he' : e' ∈ events) (hvalid : 0 < e'.tradedAt) :
    ∃ f ∈ s.2 ++ [g], f.bucket = bucketOf n e' := by
  obtain ⟨f, hf, hfb⟩ := h.covered e' he' hvalid
  rcases List.mem_append.mp hf with hf | hf
  · exact ⟨f, List.mem_append_left _ hf, hfb⟩
  · rw [List.mem_singleton.mp hf] at hfb
    exact ⟨g, List.mem_append_right _ (List.mem_singleton_self g), hg.trans hfb⟩

/-- A valid event of the current bucket. -/
theorem Grouped.same (h : Grouped n events s) (hvalid : 0 < e.tradedAt)
    (hbucket : bucketOf n e = s.1.current.bucket) :
    Grouped n (events ++ [e]) ({ s.1 with current := extended s.1.current e }, s.2) where
  started := h.started
  increasing := h.replaced rfl
  bars := by
    intro f hf
    rcases List.mem_append.mp hf with hf | hf
    · have hlt := h.closed_lt hf
      exact (h.bars f (List.mem_append_left _ hf)).other (by omega)
    · rw [List.mem_singleton.mp hf]
      show IsBar (extended s.1.current e) (eventsOf n s.1.current.bucket (events ++ [e]))
      rw [eventsOf_snoc, if_pos ⟨hvalid, hbucket⟩]
      exact (h.bars _ (List.mem_append_right _ (List.mem_singleton_self _))).extended e
  covered := by
    intro e' he' hvalid'
    rcases List.mem_append.mp he' with he' | he'
    · exact h.covered_replaced (g := extended s.1.current e) rfl he' hvalid'
    · rw [List.mem_singleton.mp he']
      exact ⟨_, List.mem_append_right _ (List.mem_singleton_self _), hbucket.symm⟩

/-- A valid event of a later bucket. -/
theorem Grouped.next (h : Grouped n events s) (hn : 1 ≤ n) (hlater : ∀ e' ∈ events, e'.timestamp ≤ e.timestamp)
    (hvalid : 0 < e.tradedAt) (hbucket : bucketOf n e ≠ s.1.current.bucket) :
    Grouped n (events ++ [e])
      ({ s.1 with latestClosed := { s.1.current with ready := true }, current := opened n e },
        s.2 ++ [{ s.1.current with ready := true }]) := by
  have hcurrent : s.1.current ∈ s.2 ++ [s.1.current] := List.mem_append_right _ (List.mem_singleton_self _)
  have hle := h.bucket_le hn hlater hcurrent
  have hlt : ∀ f ∈ s.2 ++ [{ s.1.current with ready := true }], f.bucket < bucketOf n e := by
    intro f hf
    rcases List.mem_append.mp hf with hf | hf
    · have := h.closed_lt hf
      omega
    · rw [List.mem_singleton.mp hf]
      show s.1.current.bucket < bucketOf n e
      omega
  refine ⟨h.started.trans hle, ?increasing, ?bars, ?covered⟩
  case increasing =>
    refine List.pairwise_append.mpr ⟨h.replaced rfl, List.pairwise_singleton _ _, ?_⟩
    intro f hf g hg
    rw [List.mem_singleton.mp hg]
    exact hlt f hf
  case bars =>
    intro f hf
    rcases List.mem_append.mp hf with hf | hf
    · have hne := (hlt f hf).ne'
      rcases List.mem_append.mp hf with hf | hf
      · exact (h.bars f (List.mem_append_left _ hf)).other hne
      · rw [List.mem_singleton.mp hf] at hne ⊢
        exact (h.bars _ hcurrent).closed.other hne
    · rw [List.mem_singleton.mp hf]
      -- the bucket is new: an earlier event of it would have a frame
      refine isBar_new (fun e' he' hvalid' hsame => ?_) hvalid
      obtain ⟨f', hf', hfb⟩ := h.covered_replaced (g := { s.1.current with ready := true }) rfl he' hvalid'
      have := hlt f' hf'
      omega
  case covered =>
    intro e' he' hvalid'
    rcases List.mem_append.mp he' with he' | he'
    · obtain ⟨f, hf, hfb⟩ := h.covered_replaced (g := { s.1.current with ready := true }) rfl he' hvalid'
      exact ⟨f, List.mem_append_left _ hf, hfb⟩
    · rw [List.mem_singleton.mp he']
      exact ⟨opened n e, List.mem_append_right _ (List.mem_singleton_self _), rfl⟩

end Step

/-- No valid event yet, or the frames are bars. -/
def Tracked (n : Int) (events : List MarketEvent) (s : TimeframeAggregator × List AggregatedFrame) : Prop :=
  s.1.seconds = n ∧
    ((s.1.current = {} ∧ s.2 = [] ∧ ∀ e ∈ events, ¬ 0 < e.tradedAt) ∨ Grouped n events s)

/-- **Step lemma.** -/
theorem Tracked.record {n : Int} (hn : 1 ≤ n) {events : List MarketEvent}
    {s : TimeframeAggregator × List AggregatedFrame} (h : Tracked n events s) {e : MarketEvent}
    (hlater : ∀ e' ∈ events, e'.timestamp ≤ e.timestamp) (hnonneg : 0 ≤ e.timestamp) :
    Tracked n (events ++ [e]) (record s e) := by
  obtain ⟨a, frames⟩ := s
  obtain ⟨rfl, h⟩ := h
  unfold Strategy.record
  by_cases hvalid : 0 < e.tradedAt
  · rcases h with ⟨hcurrent, hframes, hinvalid⟩ | hgrouped
    · rw [a.push_first hvalid hcurrent]
      cases hframes
      exact ⟨rfl, .inr (Grouped.first a hinvalid hvalid (bucketOf_nonneg hn hnonneg))⟩
    · by_cases hbucket : bucketOf a.seconds e = a.current.bucket
      · rw [a.push_same hvalid hgrouped.started hbucket]
        exact ⟨rfl, .inr (hgrouped.same hvalid hbucket)⟩
      · rw [a.push_next hvalid hgrouped.started hbucket]
        exact ⟨rfl, .inr (hgrouped.next hn hlater hvalid hbucket)⟩
  · rw [a.push_invalid hvalid]
    refine ⟨rfl, h.imp ?_ fun hgrouped => hgrouped.invalid hvalid⟩
    rintro ⟨hcurrent, hframes, hinvalid⟩
    refine ⟨hcurrent, hframes, fun e' he' => ?_⟩
    rcases List.mem_append.mp he' with he' | he'
    · exact hinvalid e' he'
    · rw [List.mem_singleton.mp he']
      exact hvalid

/-- **Run lemma.** -/
theorem tracked_run {n : Int} (hn : 1 ≤ n) {events : List MarketEvent}
    (hsorted : events.Pairwise fun e e' => e.timestamp ≤ e'.timestamp) (hnonneg : ∀ e ∈ events, 0 ≤ e.timestamp) :
    Tracked n events (recordAll n events) := by
  induction events using List.reverseRecOn with
  | nil =>
    refine ⟨?_, .inl ⟨rfl, rfl, nofun⟩⟩
    show max 1 n = n
    omega
  | append_singleton events e ih =>
    obtain ⟨hbefore, -, hlater⟩ := List.pairwise_append.mp hsorted
    have hrun : recordAll n (events ++ [e]) = record (recordAll n events) e := List.foldl_concat _ _ _ _
    rw [hrun]
    refine (ih hbefore fun e' he' => hnonneg e' (List.mem_append_left _ he')).record hn ?_ ?_
    · exact fun e' he' => hlater e' he' e (List.mem_singleton_self e)
    · exact hnonneg e (List.mem_append_right _ (List.mem_singleton_self e))

/-- **Main result.**  The frames are in strictly increasing bucket order, each
closed one and, from the first valid event on, the current one is the bar of
the valid events of its bucket, and every valid event is in one of them. -/
theorem frames_exact {seconds : Int} (hseconds : 1 ≤ seconds) {events : List MarketEvent}
    (hsorted : events.Pairwise fun e e' => e.timestamp ≤ e'.timestamp) (hnonneg : ∀ e ∈ events, 0 ≤ e.timestamp) :
    let s := recordAll seconds events
    (s.2 ++ [s.1.current]).Pairwise (fun f g => f.bucket < g.bucket) ∧
    (∀ f ∈ s.2, IsBar f (eventsOf seconds f.bucket events)) ∧
    (0 ≤ s.1.current.bucket → IsBar s.1.current (eventsOf seconds s.1.current.bucket events)) ∧
    ∀ e ∈ events, 0 < e.tradedAt → ∃! f, f ∈ s.2 ++ [s.1.current] ∧ f.bucket = bucketOf seconds e := by
  intro s
  obtain ⟨-, ⟨hcurrent, hframes, hinvalid⟩ | h⟩ := tracked_run hseconds hsorted hnonneg
  · have hs : s.2 = [] := hframes
    have hbucket : s.1.current.bucket = -1 := congrArg AggregatedFrame.bucket hcurrent
    rw [hs]
    refine ⟨List.pairwise_singleton _ _, nofun, fun hstarted => by omega, fun e he hvalid => ?_⟩
    exact absurd hvalid (hinvalid e he)
  · refine ⟨h.increasing, fun f hf => h.bars f (List.mem_append_left _ hf), fun _ => ?_, fun e he hvalid => ?_⟩
    · exact h.bars _ (List.mem_append_right _ (List.mem_singleton_self _))
    · obtain ⟨f, hf, hbucket⟩ := h.covered e he hvalid
      refine ⟨f, ⟨hf, hbucket⟩, ?_⟩
      rintro g ⟨hg, hgb⟩
      by_contra hne
      have hdistinct : (s.2 ++ [s.1.current]).Pairwise fun f g => f.bucket ≠ g.bucket :=
        h.increasing.imp fun hlt => hlt.ne
      have : Std.Symm fun f g : AggregatedFrame => f.bucket ≠ g.bucket := ⟨fun _ _ hfg => hfg.symm⟩
      exact hdistinct.forall hg hf hne (hgb.trans hbucket.symm)

/-- Minute bars: an event without a price, two in the first minute, one after an empty minute. -/
def minuteEvents : List MarketEvent :=
  [{ timestamp := seconds 1 }, { timestamp := seconds 2, price := 5, volume := 1 },
    { timestamp := seconds 59, price := 3, volume := 2 }, { timestamp := seconds 121, price := 4, volume := 1 }]

theorem frames_exact_minute :
    (recordAll 60 minuteEvents).2.map (fun f => (f.bucket, f.high, f.low, f.volume)) = [(0, 5, 3, 3)] ∧
    ∃! f, f ∈ (recordAll 60 minuteEvents).2 ++ [(recordAll 60 minuteEvents).1.current] ∧ f.bucket = 2 := by
  obtain ⟨-, -, -, hcovered⟩ := @frames_exact 60 (by decide) minuteEvents (by decide) (by decide)
  refine ⟨by decide +kernel, ?_⟩
  exact hcovered { timestamp := seconds 121, price := 4, volume := 1 } (by decide +kernel) (by decide +kernel)

/-! ## The strategy on two timeframes -/

namespace MultiTimeframeTrendStrategy

theorem onEvent_fst (s : MultiTimeframeTrendStrategy) (e : MarketEvent) : (s.onEvent e).1 = (s.pushFast e).pushSlow e := by
  unfold onEvent
  dsimp only
  split
  · rfl
  · split <;> rfl

/-- What a strategy has of its timeframes: the aggregators, and the averages of the closes. -/
structure Follows (fast slow : TimeframeAggregator × List AggregatedFrame) (emaPeriod : Nat)
    (s : MultiTimeframeTrendStrategy) : Prop where
  fastFrame : s.fastFrame = fast.1
  slowFrame : s.slowFrame = slow.1
  fastEma : s.fastEma = (fast.2.map AggregatedFrame.close).foldl Ema.push (.init emaPeriod)
  slowEma : s.slowEma = (slow.2.map AggregatedFrame.close).foldl Ema.push (.init emaPeriod)
  fastSamples : s.fastSamples = fast.2.length
  slowSamples : s.slowSamples = slow.2.length

variable {fast slow : TimeframeAggregator × List AggregatedFrame} {emaPeriod : Nat} {s : MultiTimeframeTrendStrategy}

theorem Follows.pushFast (h : Follows fast slow emaPeriod s) (e : MarketEvent) :
    Follows (record fast e) slow emaPeriod (s.pushFast e) := by
  unfold MultiTimeframeTrendStrategy.pushFast record
  rw [h.fastFrame]
  obtain ⟨frame, closed⟩ := fast.1.push e
  dsimp only
  cases closed with
  | false => exact ⟨rfl, h.slowFrame, h.fastEma, h.slowEma, h.fastSamples, h.slowSamples⟩
  | true =>
    refine ⟨rfl, h.slowFrame, ?_, h.slowEma, ?_, h.slowSamples⟩
    · simp only [if_true, List.map_append, List.map_singleton, List.foldl_concat, h.fastEma]
    · simp only [if_true, List.length_append, List.length_singleton, h.fastSamples]

theorem Follows.pushSlow (h : Follows fast slow emaPeriod s) (e : MarketEvent) :
    Follows fast (record slow e) emaPeriod (s.pushSlow e) := by
  unfold MultiTimeframeTrendStrategy.pushSlow record
  rw [h.slowFrame]
  obtain ⟨frame, closed⟩ := slow.1.push e
  dsimp only
  cases closed with
  | false => exact ⟨h.fastFrame, rfl, h.fastEma, h.slowEma, h.fastSamples, h.slowSamples⟩
  | true =>
    refine ⟨h.fastFrame, rfl, h.fastEma, ?_, h.fastSamples, ?_⟩
    · simp only [if_true, List.map_append, List.map_singleton, List.foldl_concat, h.slowEma]
    · simp only [if_true, List.length_append, List.length_singleton, h.slowSamples]

/-- **The averages are those of the bars.**  After any events the strategy has
averaged the closes of exactly the frames its aggregators have closed. -/
theorem follows_bars {fastSeconds slowSeconds : Int} {threshold : ℚ}
    (h : init fastSeconds slowSeconds emaPeriod threshold = .ok s) (events : List MarketEvent) :
    Follows (recordAll fastSeconds events) (recordAll slowSeconds events) emaPeriod
      (events.foldl (fun s e => (s.onEvent e).1) s) := by
  induction events using List.reverseRecOn with
  | nil =>
    unfold init at h
    split at h
    · cases h
    · cases h
      exact ⟨rfl, rfl, rfl, rfl, rfl, rfl⟩
  | append_singleton events e ih =>
    have hrun : ∀ seconds, recordAll seconds (events ++ [e]) = record (recordAll seconds events) e :=
      fun _ => List.foldl_concat _ _ _ _
    rw [List.foldl_concat, onEvent_fst, hrun, hrun]
    exact (ih.pushFast e).pushSlow e

end MultiTimeframeTrendStrategy

end Sentum.Strategy
