import Mathlib.Algebra.Order.BigOperators.Group.List
import Mathlib.Algebra.Order.Field.Basic
import Mathlib.Algebra.Order.Field.Rat
import Sentum.Lib.Run
import Sentum.Market.IncrementalIndicators

/-!
# Wilder's relative strength index

`Rsi` keeps two averages and one price.  The definition looks at the whole
price list: gains and losses between neighbours, the mean of the first `period`
of them as the seed, and `(average * (period - 1) + value) / period` for each
later one (`wilderAverage`).
-/

namespace Sentum.Market

/-! ## The definition -/

/-- From each price to the next. -/
def changes : List ℚ → List ℚ
  | a :: b :: rest => (b - a) :: changes (b :: rest)
  | _ => []

def gains (prices : List ℚ) : List ℚ := (changes prices).map fun delta => max 0 delta

def losses (prices : List ℚ) : List ℚ := (changes prices).map fun delta => max 0 (-delta)

/-- One more value in an average over `period`. -/
def smooth (period : Nat) (average value : ℚ) : ℚ := (average * (period - 1) + value) / period

/-- The mean of the first `period` values, smoothed with those after them. -/
def wilderAverage (period : Nat) (values : List ℚ) : ℚ :=
  (values.drop period).foldl (smooth period) ((values.take period).sum / period)

def wilderIndex (period : Nat) (prices : List ℚ) : ℚ :=
  let gain := wilderAverage period (gains prices)
  let loss := wilderAverage period (losses prices)
  if (changes prices).length < period then 50
  else if loss = 0 then 100
  else 100 - 100 / (1 + gain / loss)

/-! ## Averages -/

section Average

variable {period : Nat} {values : List ℚ}

theorem wilderAverage_seed (h : values.length = period) : wilderAverage period values = values.sum / period := by
  unfold wilderAverage
  rw [← h, List.drop_length, List.take_length]
  rfl

theorem wilderAverage_snoc (h : period ≤ values.length) (value : ℚ) :
    wilderAverage period (values ++ [value]) = smooth period (wilderAverage period values) value := by
  unfold wilderAverage
  rw [List.drop_append_of_le_length h, List.take_append_of_le_length h, List.foldl_concat]

theorem smooth_nonneg (hp : 1 ≤ period) {average value : ℚ} (ha : 0 ≤ average) (hv : 0 ≤ value) :
    0 ≤ smooth period average value := by
  have hcast : (1 : ℚ) ≤ period := by exact_mod_cast hp
  have hprod : 0 ≤ average * (period - 1) := mul_nonneg ha (sub_nonneg.mpr hcast)
  exact div_nonneg (add_nonneg hprod hv) (zero_le_one.trans hcast)

theorem wilderAverage_nonneg (hp : 1 ≤ period) (h : ∀ v ∈ values, 0 ≤ v) : 0 ≤ wilderAverage period values := by
  have hfold : ∀ (rest : List ℚ) (average : ℚ), (∀ v ∈ rest, 0 ≤ v) → 0 ≤ average →
      0 ≤ rest.foldl (smooth period) average := by
    intro rest
    induction rest with
    | nil =>
      intro average _ ha
      exact ha
    | cons v rest ih =>
      intro average hrest ha
      rw [List.foldl_cons]
      refine ih _ (fun w hw => hrest w (List.mem_cons_of_mem v hw)) ?_
      exact smooth_nonneg hp ha (hrest v List.mem_cons_self)
  refine hfold _ _ (fun v hv => h v (List.mem_of_mem_drop hv)) ?_
  exact div_nonneg (List.sum_nonneg fun v hv => h v (List.mem_of_mem_take hv)) (Nat.cast_nonneg period)

/-- What the code keeps of `values`: their sum, until there are `period` of them. -/
def kept (period : Nat) (values : List ℚ) : ℚ :=
  if values.length < period then values.sum else wilderAverage period values

/-- The update of the code, in its three cases. -/
theorem kept_snoc (period : Nat) (values : List ℚ) (value : ℚ) : kept period (values ++ [value]) =
    if values.length < period then
      if values.length + 1 = period then (kept period values + value) / period else kept period values + value
    else smooth period (kept period values) value := by
  have hlen : (values ++ [value]).length = values.length + 1 := by
    rw [List.length_append, List.length_singleton]
  have hsum : (values ++ [value]).sum = values.sum + value := by
    rw [List.sum_append, List.sum_singleton]
  unfold kept
  by_cases hfilling : values.length < period
  · rw [if_pos hfilling, if_pos hfilling]
    by_cases hseed : values.length + 1 = period
    · rw [if_pos hseed, if_neg (by omega), wilderAverage_seed (hlen.trans hseed), hsum]
    · rw [if_neg hseed, if_pos (by omega), hsum]
  · rw [if_neg hfilling, if_neg hfilling, if_neg (by omega), wilderAverage_snoc (by omega)]

end Average

/-! ## Changes -/

theorem changes_snoc (prices : List ℚ) (last price : ℚ) :
    changes (prices ++ [last] ++ [price]) = changes (prices ++ [last]) ++ [price - last] := by
  induction prices with
  | nil => rfl
  | cons a prices ih =>
    cases prices with
    | nil => rfl
    | cons b rest =>
      show (b - a) :: changes (b :: rest ++ [last] ++ [price]) = (b - a) :: changes (b :: rest ++ [last]) ++ _
      rw [ih]
      rfl

theorem gains_snoc (prices : List ℚ) (last price : ℚ) :
    gains (prices ++ [last] ++ [price]) = gains (prices ++ [last]) ++ [max 0 (price - last)] := by
  rw [gains, changes_snoc, List.map_append]
  rfl

theorem losses_snoc (prices : List ℚ) (last price : ℚ) :
    losses (prices ++ [last] ++ [price]) = losses (prices ++ [last]) ++ [max 0 (-(price - last))] := by
  rw [losses, changes_snoc, List.map_append]
  rfl

theorem length_gains (prices : List ℚ) : (gains prices).length = (changes prices).length := List.length_map _

theorem length_losses (prices : List ℚ) : (losses prices).length = (changes prices).length := List.length_map _

theorem gain_nonneg (period : Nat) (hp : 1 ≤ period) (prices : List ℚ) : 0 ≤ wilderAverage period (gains prices) := by
  refine wilderAverage_nonneg hp fun v hv => ?_
  obtain ⟨delta, -, rfl⟩ := List.mem_map.mp hv
  exact le_max_left 0 delta

theorem loss_nonneg (period : Nat) (hp : 1 ≤ period) (prices : List ℚ) : 0 ≤ wilderAverage period (losses prices) := by
  refine wilderAverage_nonneg hp fun v hv => ?_
  obtain ⟨delta, -, rfl⟩ := List.mem_map.mp hv
  exact le_max_left 0 (-delta)

/-- **The index is a percentage.** -/
theorem wilderIndex_mem {period : Nat} (hp : 1 ≤ period) (prices : List ℚ) :
    0 ≤ wilderIndex period prices ∧ wilderIndex period prices ≤ 100 := by
  have hgain := gain_nonneg period hp prices
  have hloss := loss_nonneg period hp prices
  unfold wilderIndex
  dsimp only
  split
  · norm_num
  · split
    · norm_num
    · next hne =>
      have hratio : 0 ≤ wilderAverage period (gains prices) / wilderAverage period (losses prices) :=
        div_nonneg hgain hloss
      have hle : 100 / (1 + wilderAverage period (gains prices) / wilderAverage period (losses prices)) ≤ 100 :=
        div_le_self (by norm_num) (by linarith)
      have hnonneg : 0 ≤ 100 / (1 + wilderAverage period (gains prices) / wilderAverage period (losses prices)) :=
        div_nonneg (by norm_num) (by linarith)
      constructor <;> linarith

/-! ## The code -/

namespace Rsi

def after (period : Nat) (prices : List ℚ) : Rsi := prices.foldl (fun r price => (r.push price).1) (init period)

/-- **Invariant**: after the prices. -/
structure Smoothed (n : Nat) (r : Rsi) (prices : List ℚ) : Prop where
  period : r.period = n
  hasPrevious : r.hasPrevious = !prices.isEmpty
  previous : ∀ price, prices.getLast? = some price → r.previous = price
  samples : r.samples = min (changes prices).length n
  avgGain : r.avgGain = kept n (gains prices)
  avgLoss : r.avgLoss = kept n (losses prices)

theorem smoothed_init (period : Nat) : Smoothed (max 1 period) (init period) [] where
  period := rfl
  hasPrevious := rfl
  previous := nofun
  samples := (Nat.zero_min _).symm
  avgGain := by
    have hpos : 0 < max 1 period := by omega
    exact (if_pos hpos).symm
  avgLoss := by
    have hpos : 0 < max 1 period := by omega
    exact (if_pos hpos).symm

/-- What `average` makes of the averages. -/
theorem average_eq {r : Rsi} {gs ls : List ℚ} (hp : 1 ≤ r.period) (hlen : gs.length = ls.length)
    (hsamples : r.samples = min gs.length r.period) (hgain : r.avgGain = kept r.period gs)
    (hloss : r.avgLoss = kept r.period ls) (gain loss : ℚ) :
    r.average gain loss =
      { r with samples := min (gs.length + 1) r.period, avgGain := kept r.period (gs ++ [gain]),
               avgLoss := kept r.period (ls ++ [loss]) } := by
  have hcast : ((r.period - 1 : Nat) : ℚ) = r.period - 1 := by
    rw [Nat.cast_sub hp, Nat.cast_one]
  rw [kept_snoc, kept_snoc, ← hlen, ← hgain, ← hloss]
  unfold average
  by_cases hfilling : gs.length < r.period
  · have hs : r.samples = gs.length := by omega
    have hmin : min (gs.length + 1) r.period = gs.length + 1 := by omega
    rw [if_pos (by omega), if_pos hfilling, if_pos hfilling, hmin]
    dsimp only
    rw [hs]
    split <;> rfl
  · have hmin : min (gs.length + 1) r.period = r.samples := by omega
    rw [if_neg (by omega), if_neg hfilling, if_neg hfilling, hcast, hmin]
    rfl

theorem push_first {r : Rsi} (h : r.hasPrevious = false) (price : ℚ) :
    r.push price = ({ r with previous := price, hasPrevious := true }, 50) := by
  unfold push
  rw [h]
  rfl

theorem push_next {r : Rsi} (h : r.hasPrevious = true) (price : ℚ) :
    r.push price =
      (({ r with previous := price }.average (max 0 (price - r.previous)) (max 0 (-(price - r.previous)))),
        ({ r with previous := price }.average (max 0 (price - r.previous)) (max 0 (-(price - r.previous)))).index) := by
  unfold push
  rw [h]
  rfl

/-- **Step lemma.** -/
theorem Smoothed.push {period : Nat} (hp : 1 ≤ period) {r : Rsi} {prices : List ℚ} (h : Smoothed period r prices)
    (price : ℚ) : Smoothed period (r.push price).1 (prices ++ [price]) ∧
      (r.push price).2 = (if (changes (prices ++ [price])).length < period then 50 else (r.push price).1.index) := by
  obtain ⟨rfl, hprevious, hlast, hsamples, hgain, hloss⟩ := h
  rcases List.eq_nil_or_concat prices with rfl | ⟨before, last, rfl⟩
  · rw [push_first hprevious]
    refine ⟨⟨rfl, rfl, ?_, hsamples, hgain, hloss⟩, ?_⟩
    · intro p hp'
      exact Option.some.inj hp'
    · exact (if_pos hp).symm
  · rw [List.concat_eq_append] at *
    have hnonempty : (before ++ [last]).isEmpty = false := by
      cases before <;> rfl
    have hprevious' : r.hasPrevious = true := by
      rw [hprevious, hnonempty]
      rfl
    have hprev : r.previous = last := hlast last List.getLast?_concat
    have hgs : (gains (before ++ [last])).length = (changes (before ++ [last])).length := length_gains _
    have hls : (losses (before ++ [last])).length = (changes (before ++ [last])).length := length_losses _
    have haverage := average_eq (r := { r with previous := price }) hp (hgs.trans hls.symm)
      (by rw [hgs]; exact hsamples) hgain hloss (max 0 (price - last)) (max 0 (-(price - last)))
    have hchanges : (changes (before ++ [last] ++ [price])).length = (changes (before ++ [last])).length + 1 := by
      rw [changes_snoc, List.length_append, List.length_singleton]
    rw [push_next hprevious', hprev, haverage]
    refine ⟨⟨rfl, ?_, ?_, ?_, ?_, ?_⟩, ?_⟩
    · show r.hasPrevious = _
      rw [hprevious']
      cases before <;> rfl
    · intro p hp'
      rw [List.getLast?_concat] at hp'
      exact Option.some.inj hp'
    · rw [hchanges, ← hgs]
    · rw [gains_snoc]
    · rw [losses_snoc]
    · by_cases hwarmup : (changes (before ++ [last] ++ [price])).length < r.period
      · rw [if_pos hwarmup]
        refine if_pos ?_
        show min ((gains (before ++ [last])).length + 1) r.period < r.period
        omega
      · rw [if_neg hwarmup]

/-- **Run lemma.** -/
theorem smoothed_after (period : Nat) (prices : List ℚ) : Smoothed (max 1 period) (after period prices) prices :=
  Run.exec_history (fun before r => Smoothed (max 1 period) r before) (smoothed_init period)
    (fun _ _ price h => (h.push (Nat.le_max_left 1 period) price).1) prices

/-- Past the warmup the averages are Wilder's. -/
theorem Smoothed.index {period : Nat} (hp : 1 ≤ period) {r : Rsi} {prices : List ℚ} (h : Smoothed period r prices)
    (hready : ¬ (changes prices).length < period) : r.index = wilderIndex period prices := by
  have hsamples := h.samples
  have hgain : r.avgGain = wilderAverage period (gains prices) := by
    rw [h.avgGain, kept, if_neg (by rwa [length_gains])]
  have hloss : r.avgLoss = wilderAverage period (losses prices) := by
    rw [h.avgLoss, kept, if_neg (by rwa [length_losses])]
  have hzero : wilderAverage period (losses prices) ≤ 0 ↔ wilderAverage period (losses prices) = 0 :=
    ⟨fun hle => le_antisymm hle (loss_nonneg period hp prices), le_of_eq⟩
  unfold Rsi.index wilderIndex
  rw [h.period, if_neg (by omega), if_neg hready, hgain, hloss]
  exact if_congr hzero rfl rfl

/-- **The index is Wilder's.** -/
theorem push_after (period : Nat) (prices : List ℚ) (price : ℚ) :
    ((after period prices).push price).2 = wilderIndex (max 1 period) (prices ++ [price]) := by
  have hp : 1 ≤ max 1 period := Nat.le_max_left 1 period
  obtain ⟨hstate, hvalue⟩ := (smoothed_after period prices).push hp price
  rw [hvalue]
  split
  · next hwarmup => exact (if_pos hwarmup).symm
  · next hready => exact hstate.index hp hready

end Rsi

end Sentum.Market
