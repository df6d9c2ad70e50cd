import Sentum.Core.EquityConservation
import Sentum.Trader.Transitions

/-!
# Sizing and equity

`start_trader_for` copies the account's equity into the risk configuration of
the engine it makes, and that engine sizes all its entries with the copy.  So
the size follows the profit of the engines before, and not that of the engine's
own trades: `sized_iff_entersEven`.
-/

namespace Sentum.Trader

open Sentum.Market Sentum.Risk

/-- `approve_entry` is called for this event, and approves. -/
def TradeEngine.approves (e : TradeEngine) (s : Surroundings) (event : MarketEvent) : Bool :=
  e.takes s.clockNow event && !e.position.isOpen && !s.control.entriesPaused &&
    (RiskManager.approveEntry e.risk (e.strategy.onEvent event).2 event.price event.timestamp e.lastExit
      s.systemNow).approved

end Sentum.Trader

namespace Sentum.Core

open Sentum.Market Sentum.Strategy Sentum.Risk Sentum.Trader Run

/-- The net profit of the trades that an engine has closed. -/
def Trader.closedProfit (tr : Trader) : ℚ := (tr.engine.completed.map TradePosition.netProfit).sum

namespace ExecutionEngine

/-- The engine that gets an entry approved with this action. -/
def approving? (s : ExecutionEngine) : Action → Option Trader
  | .traderEvent clockNow systemNow saves event =>
    match s.undefined, s.traderThread with
    | false, .taking i =>
      s.traders[i]?.filter fun tr => tr.engine.approves (s.surroundings clockNow systemNow saves) event
    | _, _ => none
  | _ => none

/-- The risk configuration that an engine is made with by this action. -/
def making? (s : ExecutionEngine) : Action → Option RiskConfig
  | .advance t _ =>
    match s.undefined, s.threads t with
    | false, .startMake _ _ risk _ _ => some risk
    | _, _ => none
  | _ => none

/-- An entry is sized with the equity at the start and all profit closed since. -/
def Sized (initial : ℚ) (s : ExecutionEngine) (a : Action) : Prop :=
  ∀ tr ∈ s.approving? a, tr.engine.risk.maxTotalCapital = initial + s.closedProfit

/-- The trades that the entering engine has closed itself cancel out. -/
def EntersEven (s : ExecutionEngine) (a : Action) : Prop := ∀ tr ∈ s.approving? a, tr.closedProfit = 0

/-- The equity read for a new engine is still the account's. -/
def Fresh (s : ExecutionEngine) (a : Action) : Prop := ∀ risk ∈ s.making? a, risk.maxTotalCapital = s.account.equity

/-- It is, and the account has received all profit closed so far. -/
def MadeCurrent (initial : ℚ) (s : ExecutionEngine) (a : Action) : Prop :=
  ∀ risk ∈ s.making? a, risk.maxTotalCapital = s.account.equity ∧ s.account.equity = initial + s.closedProfit

instance (initial : ℚ) (s : ExecutionEngine) (a : Action) : Decidable (Sized initial s a) :=
  inferInstanceAs (Decidable (∀ tr ∈ s.approving? a, _))

instance (s : ExecutionEngine) (a : Action) : Decidable (EntersEven s a) :=
  inferInstanceAs (Decidable (∀ tr ∈ s.approving? a, _))

instance (initial : ℚ) (s : ExecutionEngine) (a : Action) : Decidable (MadeCurrent initial s a) :=
  inferInstanceAs (Decidable (∀ risk ∈ s.making? a, _))

section
variable {initial : ℚ} {s s' : ExecutionEngine} {t : Thread} {r : Routine} {a : Action} {i : Nat} {tr tr' : Trader}

theorem approving?_eq_some (h : s.approving? a = some tr) :
    s.undefined = false ∧ ∃ i, s.traderThread = .taking i ∧ s.traders[i]? = some tr := by
  unfold approving? at h
  split at h
  · split at h
    · next i hdefined hthread => exact ⟨hdefined, i, hthread, (Option.filter_eq_some_iff.mp h).1⟩
    · cases h
  · cases h

theorem making?_eq_some {risk : RiskConfig} (h : s.making? a = some risk) :
    ∃ t o, a = .advance t o ∧ s.undefined = false ∧
      ∃ c symbol document strategy, s.threads t = .startMake c symbol risk document strategy := by
  unfold making? at h
  split at h
  · next t o =>
    split at h
    · next c symbol risk' document strategy hdefined hr =>
      cases h
      exact ⟨t, o, rfl, hdefined, c, symbol, document, strategy, hr⟩
    · cases h
  · cases h

/-! ## Which engine runs -/

/-- A section leaves the trader thread where it is, or outside `run`. -/
theorem traderThread_advance (s : ExecutionEngine) (t : Thread) (o : Outside) (r : Routine) :
    (s.advance t o r).traderThread = s.traderThread ∨ ∀ i, (s.advance t o r).traderThread.runs i = false := by
  cases r with
  | returned => exact .inl rfl
  | startJoin c symbol | stopJoin c =>
    simp only [advance, joinTrader]
    cases hthread : s.traderThread with
    | ended => exact .inr fun _ => rfl
    | _ => exact .inl hthread
  | pollApply total delta | stopApply c delta =>
    simp only [advance, applyProfit]
    split <;> exact .inl rfl
  | startThread c =>
    simp only [advance]
    split
    · exact .inl rfl
    · exact .inr fun _ => rfl
  | _ =>
    simp only [advance]
    repeat' split
    all_goals exact .inl rfl

/-- **Invariant**: the engine made last is the only one that is pointed to or
run, and every engine sizes with what the engines before it have left. -/
structure Sizes (initial : ℚ) (s : ExecutionEngine) : Prop where
  newest : ∀ i, s.trader = some i → i + 1 = s.traders.length
  onCurrent : ∀ i, s.traderThread.runs i = true → s.trader = some i
  capital : ∀ i tr, s.traders[i]? = some tr →
    tr.engine.risk.maxTotalCapital = initial + ((s.traders.take i).map Trader.closedProfit).sum

theorem sizes_started (account : PaperAccount) (settings : RuntimeSettings) (pendingSymbol : String) :
    Sizes initial (started account settings pendingSymbol) :=
  ⟨by simp [started], by simp [started, TraderThread.runs], by simp [started]⟩

/-- The profit of all engines, the newest one's apart. -/
theorem closedProfit_newest (hnewest : i + 1 = s.traders.length) (hi : s.traders[i]? = some tr) :
    s.closedProfit = ((s.traders.take i).map Trader.closedProfit).sum + tr.closedProfit := by
  have hsplit : s.traders = s.traders.take i ++ [tr] := by
    have htake := List.take_add_one (l := s.traders) (i := i)
    rwa [hnewest, List.take_length, hi] at htake
  have hsum : s.closedProfit = (s.traders.map Trader.closedProfit).sum := rfl
  rw [hsum]
  conv_lhs => rw [hsplit]
  simp

theorem Sizes.capital_eq (h : Sizes initial s) (hthread : s.traderThread = .taking i) (hi : s.traders[i]? = some tr) :
    tr.engine.risk.maxTotalCapital + tr.closedProfit = initial + s.closedProfit := by
  have hruns : s.traderThread.runs i = true := by
    rw [hthread]
    simp [TraderThread.runs]
  rw [h.capital i tr hi, closedProfit_newest (h.newest i (h.onCurrent i hruns)) hi, add_assoc]

/-- With the capital that the invariant gives, a size follows all profit when the engine has made none itself. -/
theorem Sizes.sized_iff (h : Sizes initial s) : Sized initial s a ↔ EntersEven s a := by
  unfold Sized EntersEven
  refine forall₂_congr fun tr htr => ?_
  obtain ⟨-, i, hthread, hi⟩ := approving?_eq_some htr
  have hcapital := h.capital_eq hthread hi
  constructor
  · intro hsized
    linarith
  · intro heven
    linarith

/-! ## One step -/

theorem stop_risk (tr : Trader) : tr.stop.engine.risk = tr.engine.risk := by
  unfold Trader.stop
  split <;> rfl

/-- A step that may write to the newest engine, and leaves its risk configuration alone. -/
theorem Sizes.of_same (h : Sizes initial s) (htrader : ∀ i, s'.trader = some i → s.trader = some i)
    (hthread : ∀ i, s'.traderThread.runs i = true → s'.trader = some i)
    (htraders : s'.traders = s.traders ∨ ∃ i tr tr', s.trader = some i ∧ s.traders[i]? = some tr ∧
      s'.traders = s.traders.set i tr' ∧ tr'.engine.risk = tr.engine.risk) : Sizes initial s' := by
  rcases htraders with hsame | ⟨i, tr, tr', hcur, hi, hset, hrisk⟩
  · refine ⟨fun j hj => ?_, hthread, ?_⟩
    · rw [hsame]
      exact h.newest j (htrader j hj)
    · rw [hsame]
      exact h.capital
  · have hnewest := h.newest i hcur
    refine ⟨fun j hj => ?_, hthread, fun j trj hj => ?_⟩
    · rw [hset, List.length_set]
      exact h.newest j (htrader j hj)
    · rw [hset] at hj ⊢
      have hlt : j < (s.traders.set i tr').length := (List.getElem?_eq_some_iff.mp hj).1
      rw [List.length_set] at hlt
      -- the engines before `j` are not the one that is written to
      rw [List.take_set_of_le (by omega)]
      by_cases hij : i = j
      · subst hij
        rw [List.getElem?_set_self hlt] at hj
        cases hj
        rw [hrisk]
        exact h.capital i tr hi
      · rw [List.getElem?_set_ne hij] at hj
        exact h.capital j trj hj

/-- A section makes an engine. -/
theorem Sizes.make (h : Sizes initial s) (hstopped : s.onCurrent = false) {made : Trader}
    (hmade : made.engine.risk.maxTotalCapital = initial + s.closedProfit) (htraders : s'.traders = s.traders ++ [made])
    (htrader : s'.trader = some s.traders.length) (hthread : s'.traderThread = s.traderThread) : Sizes initial s' := by
  refine ⟨fun j hj => ?_, fun j hj => ?_, fun j tr hj => ?_⟩
  · rw [htrader] at hj
    cases hj
    rw [htraders, List.length_append]
    rfl
  · rw [hthread] at hj
    simp [ExecutionEngine.onCurrent, h.onCurrent j hj, hj] at hstopped
  · rw [htraders] at hj ⊢
    by_cases hlt : j < s.traders.length
    · rw [List.getElem?_append_left hlt] at hj
      rw [List.take_append_of_le_length (by omega)]
      exact h.capital j tr hj
    · have hlast : j < (s.traders ++ [made]).length := (List.getElem?_eq_some_iff.mp hj).1
      rw [List.length_append, List.length_singleton] at hlast
      obtain rfl : j = s.traders.length := by omega
      rw [List.getElem?_concat_length] at hj
      cases hj
      rw [List.take_left]
      exact hmade

/-- Nothing that the invariant is about has changed. -/
theorem Sizes.same (h : Sizes initial s) (htraders : s'.traders = s.traders) (htrader : s'.trader = s.trader)
    (hthread : s'.traderThread = s.traderThread ∨ ∀ i, s'.traderThread.runs i = false) : Sizes initial s' := by
  refine h.of_same (fun i hi => htrader ▸ hi) (fun i hi => ?_) (.inl htraders)
  rw [htrader]
  rcases hthread with hsame | hno
  · exact h.onCurrent i (hsame ▸ hi)
  · rw [hno i] at hi
    cases hi

theorem sizes_advance (h : Sizes initial s) {o : Outside} (hdefined : s.undefined = false)
    (hg : MadeCurrent initial s (.advance t o)) : Sizes initial (s.advance t o (s.threads t)) := by
  have hthread := traderThread_advance s t o (s.threads t)
  have hmaking : ∀ c symbol risk document strategy, s.threads t = .startMake c symbol risk document strategy →
      risk.maxTotalCapital = initial + s.closedProfit := by
    intro c symbol risk document strategy hr
    obtain ⟨hfresh, hcurrent⟩ := hg risk (by simp [making?, hdefined, hr])
    exact hfresh.trans hcurrent
  generalize s.threads t = r at hthread hmaking ⊢
  cases hq : r.quiet with
  | true =>
    have hsame : Unchanged s (s.advance t o r) := unchanged_advance hq o
    exact h.same hsame.traders hsame.trader hthread
  | false =>
    cases r with
    | controlled g | scanStore symbol | startActive c => exact h.same rfl rfl hthread
    | startMake c symbol risk document strategy =>
      simp only [advance]
      split
      · exact h.same rfl rfl (.inl rfl)
      · next hstopped =>
        exact h.make (Bool.eq_false_of_not_eq_true hstopped) (hmaking c symbol risk document strategy rfl) rfl rfl rfl
    | stopEngine c =>
      simp only [advance]
      split
      · next i tr htrader hcur =>
        have hi : s.traders[i]? = some tr := by simpa [current, htrader] using hcur
        exact h.of_same (fun _ hj => hj) h.onCurrent (.inr ⟨i, tr, tr.stop, htrader, hi, rfl, stop_risk tr⟩)
      · exact h.same rfl rfl (.inl rfl)
    | stopReset c =>
      simp only [advance]
      split
      · exact h.same rfl rfl (.inl rfl)
      · next hstopped =>
        refine h.of_same (fun _ hj => by cases hj) (fun i hi => ?_) (.inl rfl)
        have hruns : s.traderThread.runs i = true := hi
        simp [onCurrent, h.onCurrent i hruns, hruns] at hstopped
    | _ => cases hq

/-- The trader thread goes on with engine `i`, or ends, and leaves `tr'` in the engine's place. -/
theorem Sizes.ran (h : Sizes initial s) (hcur : s.trader = some i) (hi : s.traders[i]? = some tr)
    (hrisk : tr'.engine.risk = tr.engine.risk) (htraders : s'.traders = s.traders.set i tr')
    (htrader : s'.trader = s.trader) (hthread : ∀ j, s'.traderThread.runs j = true → j = i) : Sizes initial s' := by
  refine h.of_same (fun j hj => htrader ▸ hj) (fun j hj => ?_) (.inr ⟨i, tr, tr', hcur, hi, htraders, hrisk⟩)
  rw [hthread j hj, htrader, hcur]

/-- A step of the trader thread. -/
theorem sizes_trader (h : Sizes initial s) (hdefined : s.undefined = false) (ha : a.ofTrader = true) :
    Sizes initial (s.step a) := by
  have hran := ran hdefined ha
  generalize s.step a = s' at hran ⊢
  cases hran with
  | idle => exact h
  | null starts => exact h.same rfl rfl (.inl rfl)
  | refused hspawned => exact h.same rfl rfl (.inr fun _ => rfl)
  | @starts i tr hspawned htrader hi =>
    have hrisk : ({ tr with running := true } : Trader).engine.risk = tr.engine.risk := rfl
    exact h.ran htrader hi hrisk rfl rfl (fun j hj => (TraderThread.runs_looping hj).symm)
  | loops hlooping =>
    refine h.of_same (fun _ hj => hj) (fun j hj => h.onCurrent j ?_) (.inl rfl)
    rw [hlooping]
    exact hj
  | @ends a i tr hbegun hon hi =>
    have hcur : s.trader = some i := hon.elim (h.onCurrent i) id
    have hrisk : tr.stopVenue.engine.risk = tr.engine.risk := rfl
    exact h.ran hcur hi hrisk rfl rfl (fun j hj => by cases hj)
  | @processes i tr clockNow systemNow saves event processed action htaking hi hprocessed hresult =>
    have hcur : s.trader = some i := h.onCurrent i (TraderThread.runs_taking htaking)
    have hrisk := (tr.engine.processEvent_transition (s.surroundings clockNow systemNow saves) event).sameTerms.risk
    rw [hprocessed] at hrisk
    exact h.ran hcur hi hrisk rfl rfl (fun j hj => (TraderThread.runs_looping hj).symm)
  | @throws i tr clockNow systemNow saves event processed what htaking hi hprocessed hresult =>
    have hcur : s.trader = some i := h.onCurrent i (TraderThread.runs_taking htaking)
    have hrisk := (tr.engine.processEvent_transition (s.surroundings clockNow systemNow saves) event).sameTerms.risk
    rw [hprocessed] at hrisk
    exact h.ran hcur hi ((stop_risk _).trans hrisk) rfl rfl (fun j hj => by cases hj)

/-- **Step lemma.** -/
theorem sizes_step (h : Sizes initial s) (hg : MadeCurrent initial s a) : Sizes initial (s.step a) := by
  cases hdefined : s.undefined with
  | true =>
    have hsame : s.step a = s := by simp [step, hdefined]
    rwa [hsame]
  | false =>
    refine step_of_parts h ?_ ?_ (h.same rfl rfl (.inl rfl)) (fun _ => h.same rfl rfl (.inl rfl)) ?_
    · rintro t o rfl
      exact sizes_advance h hdefined hg
    · exact fun ha _ => sizes_trader h hdefined ha
    · intro c _
      cases c <;> exact h.same rfl rfl (.inl rfl)

end

/-! ## Runs -/

/-- **Sizing follows equity** in a run whose engines are all made with an
account that has received everything, exactly when no engine enters with a
result of its own. -/
theorem sized_iff_entersEven (account : PaperAccount) (settings : RuntimeSettings) (pendingSymbol : String)
    (as : List Action)
    (hmade : Guarded step (MadeCurrent account.equity) (started account settings pendingSymbol) as) :
    Guarded step (Sized account.equity) (started account settings pendingSymbol) as ↔
      Guarded step EntersEven (started account settings pendingSymbol) as := by
  have hstart : Sizes account.equity (started account settings pendingSymbol) :=
    sizes_started account settings pendingSymbol
  constructor
  · intro hsized
    exact guarded_of_inv (fun s a h hg => sizes_step h hg.1) (fun s a h hg => h.sized_iff.mp hg.2) hstart
      (guarded_and.mpr ⟨hmade, hsized⟩)
  · intro heven
    exact guarded_of_inv (fun s a h hg => sizes_step h hg.1) (fun s a h hg => h.sized_iff.mpr hg.2) hstart
      (guarded_and.mpr ⟨hmade, heven⟩)

/-- In an orderly run the account has received everything whenever an engine is made. -/
theorem guarded_madeCurrent (account : PaperAccount) (settings : RuntimeSettings) (pendingSymbol : String)
    (as : List Action)
    (hg : Guarded step (fun s a => s.orderly a = true ∧ Fresh s a) (started account settings pendingSymbol) as) :
    Guarded step (MadeCurrent account.equity) (started account settings pendingSymbol) as := by
  refine guarded_of_inv (fun s a hk hga => kept_step hk hga.1) ?_ (.inr (inv_started account settings pendingSymbol)) hg
  rintro s a hk ⟨horderly, hfresh⟩ risk hrisk
  refine ⟨hfresh risk hrisk, ?_⟩
  obtain ⟨t, o, rfl, hdefined, c, symbol, document, strategy, hr⟩ := making?_eq_some hrisk
  have h : Inv account.equity s := hk.resolve_left (by simp [hdefined])
  simp only [orderly, hr, Routine.beginsAccounting, Routine.storesAccount, Routine.makesTrader, aloneAt,
    Bool.and_eq_true, Bool.or_eq_true, Bool.not_eq_true', decide_eq_true_eq, Bool.not_true, Bool.false_eq_true,
    false_or] at horderly
  obtain ⟨⟨hothers, -⟩, hpaid, -⟩ := horderly
  have hbalance := h.outside (by rw [hr]; rfl) hothers
  rwa [hpaid, add_zero] at hbalance

/-- An engine has closed a trade with a profit, and the one that replaces it buys. -/
def restartedRun : List Action :=
  boughtRun ++ [tick (btcEvent 3 110), .traderLoop, .command (.setManualSymbol "BTCUSDT")] ++ sections .main 16 ++
    .traderWake :: sections .main 8 ++
      [.traderRun true, .traderLoop, tick (btcEvent 36 100), .traderLoop, tick (btcEvent 37 101)]

theorem sized_restartedRun : Guarded step (Sized 1000) paper restartedRun :=
  (sized_iff_entersEven { equity := 1000 } { strategy := quickMomentumDocument } "BTCUSDT" restartedRun
    (by decide +kernel)).mpr (by decide +kernel)

/-- The first engine has closed a trade with a profit, and buys again. -/
def secondEntryRun : List Action :=
  boughtRun ++ [tick (btcEvent 3 110), .traderLoop, tick (btcEvent 34 110), .traderLoop, tick (btcEvent 35 112)]

example : Guarded step (MadeCurrent 1000) paper secondEntryRun := by decide +kernel

theorem secondEntryRun_not_sized : ¬ Guarded step (Sized 1000) paper secondEntryRun := by decide +kernel

end ExecutionEngine

end Sentum.Core
