import Mathlib.Algebra.BigOperators.Group.List.Basic
import Mathlib.Data.Finset.Max
import Mathlib.Data.List.Find
import Mathlib.Data.List.Induction
import Mathlib.Tactic.FieldSimp
import Sentum.Order.ConfirmedPositionLedger

/-!
# The average entry price

A position has had one or more buys since its symbol was last without one.  Its
average entry price lies between the lowest and the highest price of these buys,
whatever was sold in between, and it is their weighted average as long as
nothing was sold (`average_entry_price`).
-/

namespace Sentum.Order

namespace ConfirmedPositionLedger

def ledgerAfter (us : List Snapshot) : ConfirmedPositionLedger := us.foldl onOrderUpdate {}

/-- A confirmed fill of the symbol. -/
def fills (symbol : String) (u : Snapshot) : Bool := u.exchangeConfirmedFill && decide (u.symbol = symbol)

def buys (symbol : String) (us : List Snapshot) : List Snapshot :=
  us.filter fun u => fills symbol u && decide (u.side = .buy)

def sells (symbol : String) (us : List Snapshot) : List Snapshot :=
  us.filter fun u => fills symbol u && decide (u.side = .sell)

/-- The side of the last fill of the symbol. -/
def lastSide (symbol : String) (us : List Snapshot) : Option Side := (us.filter (fills symbol)).getLast?.map Snapshot.side

/-- The symbol has no position after the first `k` updates. -/
def absentAfter (symbol : String) (us : List Snapshot) (k : Nat) : Bool :=
  ((ledgerAfter (us.take k)).get symbol).isNone

/-- How many updates there were when the symbol last had no position. -/
def lastAbsent (symbol : String) (us : List Snapshot) : Nat :=
  ((List.range (us.length + 1)).reverse.find? (absentAfter symbol us)).getD 0

/-- The updates since the symbol last had no position. -/
def sinceAbsent (symbol : String) (us : List Snapshot) : List Snapshot := us.drop (lastAbsent symbol us)

/-! ## One more update -/

theorem ledgerAfter_snoc (us : List Snapshot) (u : Snapshot) :
    ledgerAfter (us ++ [u]) = (ledgerAfter us).onOrderUpdate u :=
  List.foldl_concat _ _ _ _

theorem lastAbsent_le (symbol : String) (us : List Snapshot) : lastAbsent symbol us ≤ us.length := by
  unfold lastAbsent
  cases h : (List.range (us.length + 1)).reverse.find? (absentAfter symbol us) with
  | none => exact Nat.zero_le _
  | some k =>
    have hk := List.mem_reverse.mp (List.mem_of_find?_eq_some h)
    exact Nat.le_of_lt_succ (List.mem_range.mp hk)

theorem sinceAbsent_snoc (symbol : String) (us : List Snapshot) (u : Snapshot) :
    sinceAbsent symbol (us ++ [u]) =
      if ((ledgerAfter (us ++ [u])).get symbol).isNone then [] else sinceAbsent symbol us ++ [u] := by
  have hlen : (us ++ [u]).length = us.length + 1 := by
    rw [List.length_append, List.length_singleton]
  have hnow : absentAfter symbol (us ++ [u]) (us.length + 1) = ((ledgerAfter (us ++ [u])).get symbol).isNone := by
    rw [absentAfter, ← hlen, List.take_length]
  have hbefore : (List.range (us.length + 1)).reverse.find? (absentAfter symbol (us ++ [u])) =
      (List.range (us.length + 1)).reverse.find? (absentAfter symbol us) := by
    refine List.find?_congr fun k hk => ?_
    have hlt := List.mem_range.mp (List.mem_reverse.mp hk)
    rw [absentAfter, absentAfter, List.take_append_of_le_length (by omega)]
  have hlast : lastAbsent symbol (us ++ [u]) =
      if ((ledgerAfter (us ++ [u])).get symbol).isNone then us.length + 1 else lastAbsent symbol us := by
    unfold lastAbsent
    rw [hlen, List.range_succ, List.reverse_append, List.reverse_singleton, List.singleton_append]
    by_cases habsent : ((ledgerAfter (us ++ [u])).get symbol).isNone
    · rw [List.find?_cons_of_pos (hnow.trans habsent), if_pos habsent]
      rfl
    · rw [List.find?_cons_of_neg (by rwa [hnow]), if_neg habsent, hbefore]
  unfold sinceAbsent
  rw [hlast]
  split
  · rw [← hlen, List.drop_length]
  · rw [List.drop_append_of_le_length (lastAbsent_le symbol us)]

/-- What a fill of its symbol makes of a position. -/
def filled (position : Option ConfirmedPosition) (u : Snapshot) : Option ConfirmedPosition :=
  match u.side with
  | .buy => some (bought (position.getD {}) u)
  | .sell => position.bind fun p =>
    if p.quantity - u.executedQuantity ≤ dust then none else some { p with quantity := p.quantity - u.executedQuantity }

/-- **One update** changes the position of its symbol, and only a fill does. -/
theorem get_onOrderUpdate (l : ConfirmedPositionLedger) (u : Snapshot) (symbol : String) :
    (l.onOrderUpdate u).get symbol = if fills symbol u then filled (l.get symbol) u else l.get symbol := by
  unfold fills
  cases hfill : u.exchangeConfirmedFill with
  | false =>
    rw [onOrderUpdate_of_not_fill hfill]
    rfl
  | true =>
    rw [Bool.true_and]
    unfold onOrderUpdate
    simp only [hfill, Bool.not_true, Bool.false_eq_true, if_false, decide_eq_true_eq]
    by_cases hsym : u.symbol = symbol
    · subst hsym
      rw [if_pos rfl]
      cases hs : u.side with
      | buy => simp [get, filled, hs]
      | sell =>
        cases hl : l.positions.lookup u.symbol with
        | none => simp [get, filled, hs, hl]
        | some position =>
          simp only [get, filled, hs, hl, Option.bind_some]
          split <;> simp
    · have hne : symbol ≠ u.symbol := fun h => hsym h.symm
      rw [if_neg hsym]
      cases hs : u.side with
      | buy => simp [get, hne]
      | sell =>
        cases hl : l.positions.lookup u.symbol with
        | none => rfl
        | some position =>
          simp only
          split <;> simp [get, hne]

/-! ## The average -/

/-- A weighted average lies where its values lie. -/
theorem weighted_mem {q e a b lo hi : ℚ} (hq : 0 ≤ q) (he : 0 < e) (ha : lo ≤ a ∧ a ≤ hi) (hb : lo ≤ b ∧ b ≤ hi) :
    lo ≤ (q * a + e * b) / (q + e) ∧ (q * a + e * b) / (q + e) ≤ hi := by
  have hsum : 0 < q + e := by linarith
  have hlo : q * lo ≤ q * a ∧ e * lo ≤ e * b :=
    ⟨mul_le_mul_of_nonneg_left ha.1 hq, mul_le_mul_of_nonneg_left hb.1 he.le⟩
  have hhi : q * a ≤ q * hi ∧ e * b ≤ e * hi :=
    ⟨mul_le_mul_of_nonneg_left ha.2 hq, mul_le_mul_of_nonneg_left hb.2 he.le⟩
  constructor
  · rw [le_div_iff₀ hsum]
    linarith
  · rw [div_le_iff₀ hsum]
    linarith

/-- **Invariant** of a position, with the updates since its symbol had none. -/
structure Averaged (symbol : String) (side : Option Side) (since : List Snapshot) (p : ConfirmedPosition) : Prop where
  quantity : 0 < p.quantity
  size : dust < p.quantity ∨ side = some .buy
  opened : buys symbol since ≠ []
  between : ∀ lo hi : ℚ, (∀ b ∈ buys symbol since, lo ≤ b.averageFillPrice ∧ b.averageFillPrice ≤ hi) →
    lo ≤ p.averageEntryPrice ∧ p.averageEntryPrice ≤ hi
  quote : sells symbol since = [] → p.quantity * p.averageEntryPrice =
    ((buys symbol since).map fun b => b.executedQuantity * b.averageFillPrice).sum

theorem buys_snoc (symbol : String) (us : List Snapshot) (u : Snapshot) :
    buys symbol (us ++ [u]) = buys symbol us ++ if fills symbol u ∧ u.side = .buy then [u] else [] := by
  unfold buys
  rw [List.filter_append, List.filter_singleton]
  congr 1
  by_cases h : fills symbol u ∧ u.side = .buy <;> simp_all

theorem sells_snoc (symbol : String) (us : List Snapshot) (u : Snapshot) :
    sells symbol (us ++ [u]) = sells symbol us ++ if fills symbol u ∧ u.side = .sell then [u] else [] := by
  unfold sells
  rw [List.filter_append, List.filter_singleton]
  congr 1
  by_cases h : fills symbol u ∧ u.side = .sell <;> simp_all

theorem lastSide_snoc (symbol : String) (us : List Snapshot) (u : Snapshot) :
    lastSide symbol (us ++ [u]) = if fills symbol u then some u.side else lastSide symbol us := by
  unfold lastSide
  rw [List.filter_append, List.filter_singleton]
  cases fills symbol u with
  | false =>
    rw [cond_false, List.append_nil]
    rfl
  | true =>
    rw [cond_true, List.getLast?_concat]
    rfl

theorem executed_pos {symbol : String} {u : Snapshot} (h : fills symbol u = true) : 0 < u.executedQuantity := by
  unfold fills at h
  rw [Bool.and_eq_true] at h
  exact ((Snapshot.exchangeConfirmedFill_iff u).mp h.1).2.2

/-- The price after a buy is a weighted average of the price before it and its own. -/
theorem bought_averageEntryPrice {p : ConfirmedPosition} {u : Snapshot} (h : 0 < p.quantity + u.executedQuantity) :
    (bought p u).averageEntryPrice =
      (p.quantity * p.averageEntryPrice + u.executedQuantity * u.averageFillPrice) /
        (p.quantity + u.executedQuantity) :=
  if_pos h

section Step

variable {symbol : String} {side : Option Side} {since : List Snapshot} {p : ConfirmedPosition} {u : Snapshot}

/-- The buy that opens a position. -/
theorem averaged_first (hfill : fills symbol u = true) (hbuy : u.side = .buy) :
    Averaged symbol (some .buy) [u] (bought {} u) := by
  have he := executed_pos hfill
  have hquantity : (bought {} u).quantity = u.executedQuantity := zero_add _
  have hpos : 0 < ({} : ConfirmedPosition).quantity + u.executedQuantity := by
    show 0 < 0 + u.executedQuantity
    rwa [zero_add]
  have hprice : (bought {} u).averageEntryPrice = u.averageFillPrice := by
    rw [bought_averageEntryPrice hpos]
    show (0 * 0 + u.executedQuantity * u.averageFillPrice) / (0 + u.executedQuantity) = u.averageFillPrice
    rw [zero_mul, zero_add, zero_add, mul_div_cancel_left₀ _ he.ne']
  have hbuys : buys symbol [u] = [u] := by simp [buys, hfill, hbuy]
  refine ⟨?_, .inr rfl, ?_, ?_, ?_⟩
  · rw [hquantity]
    exact he
  · rw [hbuys]
    exact List.cons_ne_nil u []
  · intro lo hi h
    rw [hbuys] at h
    rw [hprice]
    exact h u List.mem_cons_self
  · intro _
    rw [hbuys, hquantity, hprice, List.map_singleton, List.sum_singleton]

theorem Averaged.buy (h : Averaged symbol side since p) (hfill : fills symbol u = true) (hbuy : u.side = .buy) :
    Averaged symbol (some .buy) (since ++ [u]) (bought p u) := by
  have he := executed_pos hfill
  have hq := h.quantity
  have hpos : 0 < p.quantity + u.executedQuantity := by linarith
  have hprice := bought_averageEntryPrice hpos
  have hbuys : buys symbol (since ++ [u]) = buys symbol since ++ [u] := by
    rw [buys_snoc, if_pos ⟨hfill, hbuy⟩]
  have hsells : sells symbol (since ++ [u]) = sells symbol since := by
    rw [sells_snoc, if_neg (by simp [hbuy]), List.append_nil]
  refine ⟨hpos, .inr rfl, ?_, ?_, ?_⟩
  · rw [hbuys]
    exact List.append_ne_nil_of_right_ne_nil _ (List.cons_ne_nil u [])
  · intro lo hi hbounds
    rw [hbuys] at hbounds
    rw [hprice]
    refine weighted_mem hq.le he (h.between lo hi fun b hb => ?_) ?_
    · exact hbounds b (List.mem_append_left _ hb)
    · exact hbounds u (List.mem_append_right _ List.mem_cons_self)
  · intro hnone
    rw [hsells] at hnone
    rw [hbuys, List.map_append, List.sum_append, ← h.quote hnone, hprice, List.map_singleton, List.sum_singleton]
    show (p.quantity + u.executedQuantity) * _ = _
    rw [mul_div_cancel₀ _ hpos.ne']

/-- A sell leaves the average as it is. -/
theorem Averaged.sell (h : Averaged symbol side since p) (hfill : fills symbol u = true) (hsell : u.side = .sell)
    (hdust : ¬ p.quantity - u.executedQuantity ≤ dust) :
    Averaged symbol (some .sell) (since ++ [u]) { p with quantity := p.quantity - u.executedQuantity } := by
  have hlt : dust < p.quantity - u.executedQuantity := not_le.mp hdust
  have hbuys : buys symbol (since ++ [u]) = buys symbol since := by
    rw [buys_snoc, if_neg (by simp [hsell]), List.append_nil]
  have hsells : sells symbol (since ++ [u]) ≠ [] := by
    rw [sells_snoc, if_pos ⟨hfill, hsell⟩]
    exact List.append_ne_nil_of_right_ne_nil _ (List.cons_ne_nil u [])
  refine ⟨dust_pos.trans hlt, .inl hlt, ?_, ?_, fun hnone => absurd hnone hsells⟩
  · rw [hbuys]
    exact h.opened
  · rw [hbuys]
    exact h.between

/-- Nothing else counts. -/
theorem Averaged.other (h : Averaged symbol side since p) (hfill : fills symbol u = false) :
    Averaged symbol side (since ++ [u]) p := by
  have hbuys : buys symbol (since ++ [u]) = buys symbol since := by
    rw [buys_snoc, if_neg (by simp [hfill]), List.append_nil]
  have hsells : sells symbol (since ++ [u]) = sells symbol since := by
    rw [sells_snoc, if_neg (by simp [hfill]), List.append_nil]
  refine ⟨h.quantity, h.size, ?_, ?_, ?_⟩
  · rw [hbuys]
    exact h.opened
  · rw [hbuys]
    exact h.between
  · rw [hbuys, hsells]
    exact h.quote

/-- **Step lemma** for a fill: it opens the position, adds to it or leaves more than dust. -/
theorem averaged_filled {before : Option ConfirmedPosition} (h : ∀ b, before = some b → Averaged symbol side since b)
    (habsent : before = none → since = []) (hfill : fills symbol u = true) (hp : filled before u = some p) :
    Averaged symbol (some u.side) (since ++ [u]) p := by
  unfold filled at hp
  cases hside : u.side with
  | buy =>
    rw [hside] at hp
    cases hp
    cases before with
    | none =>
      rw [habsent rfl]
      exact averaged_first hfill hside
    | some b => exact (h b rfl).buy hfill hside
  | sell =>
    rw [hside] at hp
    cases before with
    | none => cases hp
    | some b =>
      simp only [Option.bind_some] at hp
      split at hp
      · cases hp
      · next hdust =>
        cases hp
        exact (h b rfl).sell hfill hside hdust

end Step

/-! ## Runs -/

theorem sinceAbsent_of_none {symbol : String} {us : List Snapshot} (h : (ledgerAfter us).get symbol = none) :
    sinceAbsent symbol us = [] := by
  induction us using List.reverseRecOn with
  | nil => exact List.drop_nil
  | append_singleton us u _ =>
    rw [sinceAbsent_snoc, h]
    rfl

/-- **Run lemma.** -/
theorem averaged_run (symbol : String) (us : List Snapshot) : ∀ p, (ledgerAfter us).get symbol = some p →
    Averaged symbol (lastSide symbol us) (sinceAbsent symbol us) p := by
  induction us using List.reverseRecOn with
  | nil =>
    intro p hp
    cases hp
  | append_singleton us u ih =>
    intro p hp
    have hsince : sinceAbsent symbol (us ++ [u]) = sinceAbsent symbol us ++ [u] := by
      rw [sinceAbsent_snoc, hp]
      rfl
    rw [hsince, lastSide_snoc]
    rw [ledgerAfter_snoc, get_onOrderUpdate] at hp
    cases hfill : fills symbol u with
    | false =>
      rw [hfill] at hp
      exact (ih p hp).other hfill
    | true =>
      rw [hfill, if_pos rfl] at hp
      rw [if_pos rfl]
      exact averaged_filled ih sinceAbsent_of_none hfill hp

/-- **Main result.**  A position is larger than dust or was last bought; its
average entry price lies between the lowest and the highest price of the buys
since its symbol had none; and without sells it is their average. -/
theorem average_entry_price (us : List Snapshot) (symbol : String) {p : ConfirmedPosition}
    (h : (ledgerAfter us).get symbol = some p) :
    let since := sinceAbsent symbol us
    (dust < p.quantity ∨ lastSide symbol us = some .buy) ∧
    (∃ lowest ∈ buys symbol since, ∃ highest ∈ buys symbol since,
      (∀ b ∈ buys symbol since,
        lowest.averageFillPrice ≤ b.averageFillPrice ∧ b.averageFillPrice ≤ highest.averageFillPrice) ∧
      lowest.averageFillPrice ≤ p.averageEntryPrice ∧ p.averageEntryPrice ≤ highest.averageFillPrice) ∧
    (sells symbol since = [] → p.quantity * p.averageEntryPrice =
      ((buys symbol since).map fun b => b.executedQuantity * b.averageFillPrice).sum) := by
  intro since
  have hp := averaged_run symbol us p h
  have hne : (buys symbol since).toFinset.Nonempty := List.toFinset_nonempty_iff _ |>.mpr hp.opened
  obtain ⟨lowest, hlowest, hleast⟩ := Finset.exists_min_image _ Snapshot.averageFillPrice hne
  obtain ⟨highest, hhighest, hmost⟩ := Finset.exists_max_image _ Snapshot.averageFillPrice hne
  have hbounds : ∀ b ∈ buys symbol since,
      lowest.averageFillPrice ≤ b.averageFillPrice ∧ b.averageFillPrice ≤ highest.averageFillPrice := by
    intro b hb
    exact ⟨hleast b (List.mem_toFinset.mpr hb), hmost b (List.mem_toFinset.mpr hb)⟩
  refine ⟨hp.size, ?_, hp.quote⟩
  exact ⟨lowest, List.mem_toFinset.mp hlowest, highest, List.mem_toFinset.mp hhighest, hbounds,
    hp.between _ _ hbounds⟩

/-- Two buys and a sell. -/
def averagedFills : List Snapshot :=
  let fill (side : Side) (executedQuantity averageFillPrice : ℚ) : Snapshot :=
    { symbol := "BTCUSDT", exchangeOrderId := 7, side, state := .filled, executedQuantity, averageFillPrice }
  [fill .buy 1 100, fill .buy 3 200, fill .sell 2 250]

theorem average_entry_price_fills :
    ∃ p, (ledgerAfter averagedFills).get "BTCUSDT" = some p ∧ p.averageEntryPrice = 175 ∧
      (dust < p.quantity ∨ lastSide "BTCUSDT" averagedFills = some .buy) := by
  have hp : ((ledgerAfter averagedFills).get "BTCUSDT").map ConfirmedPosition.averageEntryPrice = some 175 := by
    decide +kernel
  obtain ⟨p, hget, haverage⟩ := Option.map_eq_some_iff.mp hp
  exact ⟨p, hget, haverage, (average_entry_price averagedFills "BTCUSDT" hget).1⟩

end ConfirmedPositionLedger

end Sentum.Order
